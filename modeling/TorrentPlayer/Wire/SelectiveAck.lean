import Mathlib.Data.Nat.Bitwise
import TorrentPlayer.Library.BigEndian
import TorrentPlayer.Wire.UtpStream

namespace TorrentPlayer.Wire

open Library List

/-!
# Selective acknowledgements on the wire

A receiver tells which packets wait behind a gap.  The numbers become bits of a
mask, the mask an extension of the packet, and the length of an extension is one
byte.  A mask of 256 bytes or more does not fit, and the rest of it reads as a
payload.
-/

structure PacketHeader where
  typeVer : BitVec 8
  extension : BitVec 8
  connectionId : BitVec 16
  timestampMicros : BitVec 32
  timestampDiffMicros : BitVec 32
  wndSize : BitVec 32
  seqNr : Seq
  ackNr : Seq

def extNone : BitVec 8 :=
  0

def extSelectiveAck : BitVec 8 :=
  1

/-- A word in network order, followed by other bytes. -/
def putInt (width : Nat) (word : BitVec (8 * width)) (rest : Bytes) : Bytes :=
  bigEndian width word.toNat ++ rest

def getInt (width : Nat) (src : Bytes) : BitVec (8 * width) × Bytes :=
  (BitVec.ofNat _ (ofBigEndian (src.take width)), src.drop width)

theorem getInt_putInt (width : Nat) (word : BitVec (8 * width)) (rest : Bytes) :
    getInt width (putInt width word rest) = (word, rest) := by
  have small : word.toNat % 256 ^ width = word.toNat := by
    apply Nat.mod_eq_of_lt
    have bound := word.isLt
    rwa [Nat.pow_mul] at bound
  simp [getInt, putInt, ofBigEndian_bigEndian, small]

namespace PacketHeader

def encode (header : PacketHeader) (rest : Bytes) : Bytes :=
  putInt 1 header.typeVer (putInt 1 header.extension (putInt 2 header.connectionId
    (putInt 4 header.timestampMicros (putInt 4 header.timestampDiffMicros
      (putInt 4 header.wndSize (putInt 2 header.seqNr (putInt 2 header.ackNr rest)))))))

def decode (src : Bytes) : Except String (PacketHeader × Bytes) :=
  if src.length < 20 then .error "uTP packet header too short"
  else
    let typeVer := getInt 1 src
    let extension := getInt 1 typeVer.2
    let connectionId := getInt 2 extension.2
    let timestampMicros := getInt 4 connectionId.2
    let timestampDiffMicros := getInt 4 timestampMicros.2
    let wndSize := getInt 4 timestampDiffMicros.2
    let seqNr := getInt 2 wndSize.2
    let ackNr := getInt 2 seqNr.2
    .ok ({ typeVer := typeVer.1, extension := extension.1, connectionId := connectionId.1
           timestampMicros := timestampMicros.1, timestampDiffMicros := timestampDiffMicros.1
           wndSize := wndSize.1, seqNr := seqNr.1, ackNr := ackNr.1 }, ackNr.2)

theorem decode_encode (header : PacketHeader) (rest : Bytes) :
    decode (header.encode rest) = .ok (header, rest) := by
  have long : ¬ (header.encode rest).length < 20 := by
    simp [encode, putInt]
    omega
  unfold decode
  rw [if_neg long]
  simp only [encode, getInt_putInt]

end PacketHeader

/-- Take the extensions off.  Each of them takes two bytes and its body, so as
many rounds as there are bytes are enough. -/
def splitExtensions : Nat -> BitVec 8 -> Bytes -> Option Bytes -> Except String (Bytes × Option Bytes)
  | 0, ext, data, sack =>
    if ext = extNone then .ok (data, sack) else .error "uTP extension header truncated"
  | rounds + 1, ext, data, sack =>
    if ext = extNone then .ok (data, sack)
    else
      match data with
      | next :: len :: rest =>
        if rest.length < len.toNat then .error "uTP extension body truncated"
        else
          splitExtensions rounds next.toBitVec (rest.drop len.toNat)
            (if ext = extSelectiveAck then some (rest.take len.toNat) else sack)
      | _ => .error "uTP extension header truncated"

/-- The header, the payload and the mask of what arrives. -/
def readPacket (raw : Bytes) : Except String (PacketHeader × Bytes × Option Bytes) := do
  let read <- PacketHeader.decode raw
  let split <- splitExtensions read.2.length read.1.extension read.2 none
  return (read.1, split)

namespace StreamState

def ackHeader (st : StreamState) (sendId : BitVec 16) (now delay : BitVec 32)
    (sack : Option Bytes) : PacketHeader where
  typeVer := 0x21
  extension := if sack.any (!·.isEmpty) then extSelectiveAck else extNone
  connectionId := sendId
  timestampMicros := now
  timestampDiffMicros := delay
  wndSize := BitVec.ofNat 32 st.recvWindow
  seqNr := st.seqNr
  ackNr := st.ackNr

def encodeAckPacket (st : StreamState) (sendId : BitVec 16) (now delay : BitVec 32)
    (sack : Option Bytes) : StreamState × Bytes :=
  (st.advertise, (st.ackHeader sendId now delay sack).encode (match sack with
      | some mask => if mask.isEmpty then [] else 0 :: UInt8.ofNat mask.length :: mask
      | none => []))

variable (st : StreamState) (sendId : BitVec 16) (now delay : BitVec 32)

theorem splitExtensions_mask (mask : Bytes) :
    splitExtensions (mask.length + 2) extSelectiveAck (0 :: UInt8.ofNat mask.length :: mask) none =
    .ok (mask.drop (mask.length % 256), some (mask.take (mask.length % 256))) := by
  have size : (UInt8.ofNat mask.length).toNat = mask.length % 256 := UInt8.toNat_ofNat'
  have fits : ¬ mask.length < mask.length % 256 := Nat.not_lt.mpr (Nat.mod_le _ _)
  unfold splitExtensions
  dsimp only
  rw [size, if_neg fits]
  rfl

theorem readPacket_encodeAckPacket {sack : Option Bytes} (nonempty : sack ≠ some []) :
    readPacket (st.encodeAckPacket sendId now delay sack).2 =
    .ok (st.ackHeader sendId now delay sack, (st.ackPacket sack).payload, (st.ackPacket sack).sack) := by
  unfold readPacket encodeAckPacket
  rw [PacketHeader.decode_encode]
  cases sack with
  | none => rfl
  | some mask =>
    have present : mask.isEmpty = false := by
      cases mask with
      | nil => exact absurd rfl nonempty
      | cons => rfl
    have extended : (st.ackHeader sendId now delay (some mask)).extension = extSelectiveAck := by
      simp [ackHeader, present]
    simp only [present, Bool.false_eq_true, if_false, bind, Except.bind, extended,
      length_cons, splitExtensions_mask]
    rfl

end StreamState

/-! ## Masks -/

def maskBit (mask : Bytes) (bit : Nat) : Bool :=
  (mask.getD (bit / 8) 0).toNat.testBit (bit % 8)

def maskNumbers (ackNr : Seq) (mask : Bytes) : List Seq :=
  ((List.range (8 * mask.length)).filter (maskBit mask)).map (fun bit => ackNr + 2 + BitVec.ofNat 16 bit)

theorem testBit_maskByte (offsets : List Nat) (index bit : Nat) (small : bit < 8) (byte : UInt8) :
    (offsets.foldl (fun byte offset =>
        if (offset - 2) / 8 = index then byte ||| UInt8.ofNat (2 ^ ((offset - 2) % 8)) else byte)
      byte).toNat.testBit bit = true <-> byte.toNat.testBit bit = true \/ Exists fun offset : Nat =>
          offset ∈ offsets /\ offset - 2 = 8 * index + bit := by
  induction offsets generalizing byte with
  | nil => simp
  | cons offset rest ih =>
    have shifted : (UInt8.ofNat (2 ^ ((offset - 2) % 8))).toNat = 2 ^ ((offset - 2) % 8) := by
      have few : (offset - 2) % 8 < 8 := Nat.mod_lt _ (by decide)
      exact Nat.mod_eq_of_lt (Nat.pow_lt_pow_right (by decide) few)
    rw [foldl_cons, ih]
    simp only [mem_cons, exists_eq_or_imp]
    by_cases here : (offset - 2) / 8 = index
    · have same : (offset - 2) % 8 = bit <-> offset - 2 = 8 * index + bit := by omega
      rw [if_pos here, UInt8.toNat_or, Nat.testBit_or, shifted, Nat.testBit_two_pow,
        Bool.or_eq_true, decide_eq_true_eq, same, or_assoc]
    · have other : ¬ offset - 2 = 8 * index + bit := by omega
      simp [if_neg here, other]

namespace StreamState

variable {st : StreamState} {mask : Bytes}

theorem length_selectiveAckBitmask (masked : st.selectiveAckBitmask = some mask) :
    Exists fun furthest : Nat => st.waitingOffsets.max? = some furthest /\
    mask.length = (furthest - 1 + 31) / 32 * 4 := by
  unfold selectiveAckBitmask at masked
  split at masked
  · cases masked
  case h_2 furthest most =>
    cases masked
    exact ⟨furthest, most, by simp⟩

theorem maskBit_selectiveAckBitmask (masked : st.selectiveAckBitmask = some mask) {bit : Nat}
    (inside : bit < 8 * mask.length) : maskBit mask bit = true <-> bit + 2 ∈ st.waitingOffsets := by
  have low : ∀ offset ∈ st.waitingOffsets, 2 <= offset := by
    intro offset within
    exact of_decide_eq_true (mem_filter.mp within).2
  unfold selectiveAckBitmask at masked
  split at masked
  · cases masked
  case h_2 furthest most =>
    cases masked
    have position : bit / 8 < (furthest - 1 + 31) / 32 * 4 := by
      simp at inside
      omega
    rw [maskBit, getD_eq_getElem?_getD, getElem?_map, getElem?_range position,
      Option.map_some, Option.getD_some, testBit_maskByte _ _ _ (Nat.mod_lt _ (by decide))]
    simp only [UInt8.toNat_zero, Nat.zero_testBit, Bool.false_eq_true, false_or]
    constructor
    · rintro ⟨offset, within, same⟩
      have past := low offset within
      rwa [show bit + 2 = offset by omega]
    · intro within
      exact ⟨bit + 2, within, by omega⟩

theorem mem_waitingOffsets (st : StreamState) (offset : Nat) : offset ∈ st.waitingOffsets <->
    (Exists fun seq : Seq => seq ∈ st.outOfOrder.keys /\ (seq - st.ackNr).toNat = offset) /\
      2 <= offset := by
  simp [waitingOffsets]

theorem mem_maskNumbers (masked : st.selectiveAckBitmask = some mask) (short : mask.length < 256)
    (seq : Seq) : seq ∈ maskNumbers st.ackNr mask <-> (seq - st.ackNr).toNat ∈ st.waitingOffsets := by
  rcases length_selectiveAckBitmask masked with ⟨_, most, _⟩
  rw [max?_eq_some_iff] at most
  simp only [maskNumbers, mem_map, mem_filter, mem_range]
  constructor
  · rintro ⟨bit, ⟨inside, set⟩, same⟩
    have distance : (seq - st.ackNr).toNat = bit + 2 := by bv_omega
    rw [distance]
    exact (maskBit_selectiveAckBitmask masked inside).mp set
  · intro waits
    have past := ((st.mem_waitingOffsets _).mp waits).2
    have near := most.2 _ waits
    have inside : (seq - st.ackNr).toNat - 2 < 8 * mask.length := by omega
    refine ⟨(seq - st.ackNr).toNat - 2, ⟨inside, ?_⟩, by bv_omega⟩
    rw [maskBit_selectiveAckBitmask masked inside, Nat.sub_add_cancel past]
    exact waits

/-- The packet reads as its header and a mask of just the packets that wait. -/
def AckRoundTrips (st : StreamState) (sendId : BitVec 16) (now delay : BitVec 32) : Prop :=
  Exists fun sack : Option Bytes =>
    readPacket (st.encodeAckPacket sendId now delay st.selectiveAckBitmask).2 =
        .ok (st.ackHeader sendId now delay st.selectiveAckBitmask, [], sack) /\
      ∀ seq : Seq, seq ∈ maskNumbers st.ackNr (sack.getD []) <-> seq ∈ st.outOfOrder.keys

/-- An acknowledgement is read as it was meant just where every packet that waits
is at least 2 and at most 2017 ahead of the acknowledged ones: 252 bytes of mask
are the most that the byte of its length can tell. -/
theorem selective_ack_round_trip_iff (st : StreamState) (sendId : BitVec 16)
    (now delay : BitVec 32) : st.AckRoundTrips sendId now delay <-> ∀ seq, seq ∈ st.outOfOrder.keys ->
        2 <= (seq - st.ackNr).toNat ∧ (seq - st.ackNr).toNat <= 2017 := by
  unfold AckRoundTrips
  cases masked : st.selectiveAckBitmask with
  | none =>
    have idle : st.waitingOffsets = [] := by
      rw [<- max?_eq_none_iff]
      unfold selectiveAckBitmask at masked
      split at masked
      · assumption
      · cases masked
    have nonempty : (none : Option Bytes) ≠ some [] := by simp
    rw [readPacket_encodeAckPacket st sendId now delay nonempty]
    constructor
    · rintro ⟨sack, read, same⟩ seq waits
      cases read
      cases (same seq).mpr waits
    · intro fits
      refine ⟨none, rfl, fun seq => ⟨nofun, fun waits => ?_⟩⟩
      have listed := (st.mem_waitingOffsets _).mpr ⟨⟨seq, waits, rfl⟩, (fits seq waits).1⟩
      rw [idle] at listed
      cases listed
  | some mask =>
    rcases length_selectiveAckBitmask masked with ⟨_, most, size⟩
    rw [max?_eq_some_iff] at most
    have past := ((st.mem_waitingOffsets _).mp most.1).2
    have nonempty : some mask ≠ some [] := by
      intro empty
      rw [Option.some.inj empty, length_nil] at size
      omega
    rw [readPacket_encodeAckPacket st sendId now delay nonempty]
    constructor
    · rintro ⟨sack, read, same⟩ seq waits
      have whole : mask.drop (mask.length % 256) = [] :=
        congrArg (fun read => read.2.1) (Except.ok.inj read)
      have masks : some (mask.take (mask.length % 256)) = sack :=
        congrArg (fun read => read.2.2) (Except.ok.inj read)
      rw [drop_eq_nil_iff] at whole
      have short : mask.length < 256 := by omega
      rw [Nat.mod_eq_of_lt short, take_length] at masks
      rw [<- same, <- masks, Option.getD_some, mem_maskNumbers masked short] at waits
      have near := most.2 _ waits
      exact ⟨((st.mem_waitingOffsets _).mp waits).2, by omega⟩
    · intro fits
      rcases (st.mem_waitingOffsets _).mp most.1 with ⟨⟨seq, waits, _⟩, _⟩
      have near := (fits seq waits).2
      have short : mask.length < 256 := by omega
      refine ⟨some mask, ?_, fun seq => ?_⟩
      · rw [ackPacket, Nat.mod_eq_of_lt short, take_length, drop_length]
      · rw [Option.getD_some, mem_maskNumbers masked short, mem_waitingOffsets]
        constructor
        · rintro ⟨⟨other, waits, same⟩, _⟩
          rwa [show seq = other by bv_omega]
        · intro waits
          exact ⟨⟨seq, waits, rfl⟩, (fits seq waits).1⟩

/-- A packet waits behind a gap of more than two thousand. -/
def farAhead : StreamState :=
  { loopback := false, outOfOrder := (∅ : FiniteMap Seq Bytes).insert 2018 [] }

/-- Its mask has 256 bytes, the length reads as zero, and the mask as a payload. -/
theorem far_ahead_not_acknowledged :
    (∀ seq, seq ∈ farAhead.outOfOrder.keys -> (seq - farAhead.ackNr).toNat < 2 ^ 15) ∧
      ¬ farAhead.AckRoundTrips 0 0 0 := by
  refine ⟨fun seq waits => ?_, ?_⟩
  · rw [mem_singleton.mp waits]
    decide
  rintro ⟨sack, read, _⟩
  have payload : (readPacket (farAhead.encodeAckPacket 0 0 0 farAhead.selectiveAckBitmask).2).map
      (fun read => read.2.1.length) = .ok 256 := by decide +kernel
  rw [read] at payload
  have empty : ([] : Bytes).length = 256 := Except.ok.inj payload
  cases empty

end StreamState
end TorrentPlayer.Wire
