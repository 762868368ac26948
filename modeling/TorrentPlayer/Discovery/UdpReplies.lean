import Mathlib.Data.List.Nodup
import TorrentPlayer.Core.PeerConn
import TorrentPlayer.Library.BigEndian

namespace TorrentPlayer.Discovery.UdpClient

open Library TorrentPlayer.Core List

/-!
# Replies of UDP trackers on a shared socket

Every round trip reads from the socket itself: a datagram goes to whichever of
the waiting readers the socket gives it to, and a reader that finds it is not for
itself drops it and sends again.
-/

/-- A round trip that waits in `recv_from`.  The id is its four bytes, read as unsigned. -/
structure RoundTrip where
  addr : SocketAddr
  expectTid : Nat

inductive Outcome
  | again
  | shortResponse
  | refused (message : List UInt8)
  | done (body : List UInt8)
  deriving DecidableEq

def actionError : Nat := 3

/-- What a round trip makes of the datagram it has read into its buffer of 2048 bytes. -/
def RoundTrip.read (trip : RoundTrip) (sender : SocketAddr) (datagram : List UInt8) : Outcome :=
  let buf := datagram.take 2048
  if sender ≠ trip.addr then .again
  else if buf.length < 8 then .shortResponse
  else if ofBigEndian ((buf.drop 4).take 4) ≠ trip.expectTid then .again
  else if ofBigEndian (buf.take 4) = actionError then .refused (buf.drop 8)
  else .done (buf.drop 8)

/-- The datagram comes from the round trip's tracker and carries its id. -/
def RoundTrip.Answers (trip : RoundTrip) (sender : SocketAddr) (datagram : List UInt8) : Prop :=
  sender = trip.addr /\ 8 <= datagram.length /\ ofBigEndian ((datagram.drop 4).take 4) = trip.expectTid
  deriving Decidable

/-- The socket gives a datagram to one of the round trips that wait on it.  The round trip
that has ended with it, if one has, and its outcome. -/
def recvFrom (waiting : List RoundTrip) (reader : Nat) (sender : SocketAddr)
    (datagram : List UInt8) : Option (Nat × Outcome) :=
  match waiting[reader]? with
  | none => none
  | some trip =>
    match trip.read sender datagram with
    | .again => none
    | outcome => some (reader, outcome)

variable {trip other : RoundTrip} {sender : SocketAddr} {datagram : List UInt8}

theorem read_tid : ((datagram.take 2048).drop 4).take 4 = (datagram.drop 4).take 4 := by
  rw [drop_take, take_take]
  rfl

section
variable (answers : trip.Answers sender datagram)
include answers

theorem length_buf : ¬ (datagram.take 2048).length < 8 := by
  have long := answers.2.1
  rw [length_take]
  omega

theorem read_other (apart : trip.expectTid ≠ other.expectTid) : other.read sender datagram = .again := by
  simp only [RoundTrip.read]
  split
  · rfl
  · rw [if_neg (length_buf answers), read_tid, answers.2.2, if_pos apart]

theorem read_own : trip.read sender datagram ≠ .again := by
  simp only [RoundTrip.read]
  rw [if_neg (not_not.mpr answers.1), if_neg (length_buf answers), read_tid,
    if_neg (not_not.mpr answers.2.2)]
  split <;> nofun

end

/-- A reply is sure to reach its round trip exactly when no other one waits. -/
theorem reply_delivered_iff_alone {waiting : List RoundTrip}
    (distinct : (waiting.map RoundTrip.expectTid).Nodup) {place : Nat}
    (isTrip : waiting[place]? = some trip) (answers : trip.Answers sender datagram) :
    (forall reader, reader < waiting.length -> Exists fun outcome =>
      recvFrom waiting reader sender datagram = some (place, outcome)) <-> waiting.length = 1 := by
  have inside := (List.getElem?_eq_some_iff.mp isTrip).1
  constructor
  · intro delivered
    by_contra more
    -- Some other reader may be given the datagram.
    have ⟨reader, within, apart⟩ : Exists fun reader => reader < waiting.length /\ place ≠ reader :=
      ⟨if place = 0 then 1 else 0, by split <;> omega, by split <;> omega⟩
    rcases delivered reader within with ⟨outcome, read⟩
    have isOther := getElem?_eq_getElem within
    have tids : trip.expectTid ≠ waiting[reader].expectTid := by
      intro same
      have equal : (waiting.map RoundTrip.expectTid)[place]? =
          (waiting.map RoundTrip.expectTid)[reader]? := by
        rw [getElem?_map, getElem?_map, isTrip, isOther, Option.map_some, Option.map_some, same]
      exact apart (getElem?_inj (by rwa [length_map]) distinct |>.mp equal)
    rw [recvFrom, isOther] at read
    dsimp only at read
    rw [read_other answers tids] at read
    cases read
  · intro alone reader within
    have here : reader = place := by omega
    rw [here, recvFrom, isTrip]
    have own := read_own answers
    dsimp only
    split
    next dropped => exact absurd dropped own
    · exact ⟨_, rfl⟩

def tracker : SocketAddr := { ip := .v4 1, port := 80 }

/-- A connect reply with the id 1. -/
def reply : List UInt8 := [0, 0, 0, 0, 0, 0, 0, 1, 0, 0, 0, 0, 0, 0, 0, 9]

theorem reply_delivered_iff_alone_connect : Exists fun outcome =>
      recvFrom [⟨tracker, 1⟩] 0 tracker reply = some (0, outcome) := by
  have answers : RoundTrip.Answers ⟨tracker, 1⟩ tracker reply := by decide
  refine (reply_delivered_iff_alone ?_ rfl answers).mpr rfl 0 Nat.zero_lt_one
  exact nodup_singleton 1

/-- The second of two announces to one tracker reads the reply to the first. -/
theorem reply_dropped_by_other :
    (([⟨tracker, 1⟩, ⟨tracker, 2⟩] : List RoundTrip).map RoundTrip.expectTid).Nodup ∧
      RoundTrip.Answers ⟨tracker, 1⟩ tracker reply ∧
      recvFrom [⟨tracker, 1⟩, ⟨tracker, 2⟩] 1 tracker reply = none := by
  decide

end TorrentPlayer.Discovery.UdpClient
