import TorrentPlayer.Library.Machine
import TorrentPlayer.Wire.UtpReceiver
import TorrentPlayer.Wire.UtpSender

namespace TorrentPlayer.Wire

open Library StreamState List Option

/-!
# A uTP connection over a network that loses, reorders and repeats packets

Two streams are connected by a network.  A packet under way to a side may be
lost, may arrive in any order, and may stay under way after it has arrived, so
that it arrives again.  No packet is made up.

Beside the streams the machine records what a proof refers to: the packets that
a side has cut from what it accepted, what it returned to its reader, whether it
reported the end, and how many packets have been put in order.  A packet under
way carries its number without the wrap.
-/

inductive Side where
  | initiator
  | acceptor
  deriving DecidableEq

def Side.other : Side -> Side
  | .initiator => .acceptor
  | .acceptor => .initiator

@[simp] theorem Side.other_other (side : Side) : side.other.other = side := by
  cases side <;> rfl

theorem Side.other_ne (side : Side) : side.other ≠ side := by
  cases side <;> decide

theorem Side.eq_or_eq_other (left right : Side) : left = right \/ left = right.other := by
  cases left <;> cases right <;> decide

/-- The number of the first data packet of a side. -/
def Side.firstSeq : Side -> Seq
  | .initiator => 2
  | .acceptor => 1

structure Party where
  stream : StreamState
  /-- The payloads of the data packets, in the order of their numbers. -/
  chunks : List Bytes := []
  /-- What the writer was told was accepted. -/
  accepted : Bytes := []
  /-- What the reader was given. -/
  returned : Bytes := []
  /-- The reader was told that the stream has ended. -/
  ended : Bool := false
  /-- The number of packets that were put in order for the reader. -/
  arrived : Nat := 0

namespace Party

/-- Record what an operation did. -/
def record (party : Party) (stream : StreamState) (sent : Sent) : Party :=
  { party with
    stream := stream
    chunks := party.chunks ++ sent.fresh.map Packet.payload
    arrived := party.arrived + (stream.expectedSeqNr - party.stream.expectedSeqNr).toNat }

/-- The packets that an operation put under way, with their numbers: a packet
that is sent again is the oldest one that is kept. -/
def flights (party : Party) (stream : StreamState) (sent : Sent) : List Flight :=
  let after := party.record stream sent
  sent.resent.toList.map (Flight.mk (after.chunks.length - stream.unacked.length)) ++
    (sent.fresh.zipIdx party.chunks.length).map (fun numbered => ⟨numbered.2, numbered.1⟩) ++
    sent.control.toList.map (Flight.mk after.chunks.length)

def takeIn (party : Party) (buf : Bytes) (result : StreamState.WriteResult) : Party :=
  { party with accepted := party.accepted ++ buf.take result.count }

def handOver (party : Party) : StreamState.ReadResult -> Party
  | .pending => party
  | .ended => { party with ended := true }
  | .bytes bytes => { party with returned := party.returned ++ bytes }

end Party

structure Connection where
  party : Side -> Party
  /-- The packets under way to a side. -/
  toward : Side -> List Flight

/-- One operation on a stream, or one event of the network. -/
inductive UtpLabel where
  | write (side : Side) (buf : Bytes) (elapsed : Bool)
  | close (side : Side)
  | read (side : Side) (room : Nat) (elapsed : Bool)
  | deliver (side : Side) (position : Nat) (keep : Bool) (delay : Nat) (expired : Bool)
  | lose (side : Side) (position : Nat)

namespace Connection

/-- The network's answer to an opened connection, which the initiator also gets
when it is repeated. -/
def synAck : Packet where
  type := .state
  timestampDiffMicros := 0
  wndSize := defaultRecvWnd
  seqNr := 1
  ackNr := 1

def opened (loopback : Bool) : Connection where
  party
    | .initiator => { stream := .connect loopback synAck }
    | .acceptor => { stream := .accept loopback 1 }
  toward
    | .initiator => [⟨0, synAck⟩]
    | .acceptor => []

/-- A side took a step and put packets under way. -/
def moved (connection : Connection) (side : Side) (party : Party) (flights : List Flight) : Connection where
  party := Function.update connection.party side party
  toward := Function.update connection.toward side.other (connection.toward side.other ++ flights)

def taken (connection : Connection) (side : Side) (position : Nat) : Connection where
  party := connection.party
  toward := Function.update connection.toward side ((connection.toward side).eraseIdx position)

def step (connection : Connection) : UtpLabel -> Option Connection
  | .write side buf elapsed =>
    let party := connection.party side
    let outcome := party.stream.pollWrite elapsed buf
    some (connection.moved side ((party.record outcome.2.1 outcome.2.2).takeIn buf outcome.1)
      (party.flights outcome.2.1 outcome.2.2))
  | .close side =>
    let party := connection.party side
    let outcome := party.stream.closeWrite
    some (connection.moved side (party.record outcome.1 outcome.2) (party.flights outcome.1 outcome.2))
  | .read side room elapsed =>
    let party := connection.party side
    let outcome := party.stream.pollRead elapsed room
    some (connection.moved side ((party.record outcome.2.1 outcome.2.2).handOver outcome.1)
      (party.flights outcome.2.1 outcome.2.2))
  | .deliver side position keep delay expired =>
    ((connection.toward side)[position]?).map (fun flight =>
      let party := connection.party side
      let outcome := party.stream.receive flight.packet delay expired
      (if keep then connection else connection.taken side position).moved side
        (party.record outcome.1 outcome.2) (party.flights outcome.1 outcome.2))
  | .lose side position =>
    ((connection.toward side)[position]?).map (fun _ => connection.taken side position)

def machine : Machine Connection UtpLabel where
  init connection := Exists fun loopback : Bool => connection = opened loopback
  step := step

end Connection

/-- All packets that an operation puts under way are genuine. -/
theorem Emits.genuine {first : Seq} {party : Party} {after : StreamState} {sent : Sent}
    (emits : Emits first party.chunks party.stream after sent) : ∀ flight ∈ party.flights after sent,
    Genuine first (party.record after sent).chunks after.writeClosed flight := by
  intro flight underway
  rcases mem_append.mp underway with early | control
  · rcases mem_append.mp early with resent | fresh
    · rcases mem_map.mp resent with ⟨packet, found, made⟩
      rw [<- made]
      exact emits.resent packet (mem_toList.mp found)
    rcases mem_map.mp fresh with ⟨⟨packet, number⟩, found, made⟩
    rw [mem_zipIdx_iff_le_and_getElem?_sub] at found
    have numbered := emits.fresh (number - party.chunks.length) packet found.2
    have sum : party.chunks.length + (number - party.chunks.length) = number := by omega
    rw [sum] at numbered
    rw [<- made, Genuine, numbered.1]
    refine ⟨numbered.2, ?_⟩
    show (party.chunks ++ sent.fresh.map Packet.payload)[number]? = some packet.payload
    rw [getElem?_append_right found.1, getElem?_map, found.2]
    rfl
  · rcases mem_map.mp control with ⟨packet, found, rfl⟩
    exact emits.control packet (mem_toList.mp found)

/-! ## The invariant -/

/-- One direction: the packets under way are the sender's, and the receiver has
put a beginning of them in order. -/
structure Direction (first : Seq) (sender receiver : Party) (flights : List Flight) : Prop where
  sends : Sends first sender.chunks sender.stream.sendSide
  accepted : sender.accepted = sender.chunks.flatten
  genuine : ∀ flight : Flight, flight ∈ flights ->
    Genuine first sender.chunks sender.stream.writeClosed flight
  receives : Receives first sender.chunks receiver.arrived receiver.returned receiver.stream.readSide

/-- What a step of one side does, seen from both directions. -/
structure Progress (first peerFirst : Seq) (peer before after : Party)
    (flights : List Flight) : Prop where
  sends : Sends first after.chunks after.stream.sendSide
  accepted : after.accepted = after.chunks.flatten
  genuine : ∀ flight : Flight, flight ∈ flights ->
    Genuine first after.chunks after.stream.writeClosed flight
  grown : before.chunks <+: after.chunks
  closed : before.stream.writeClosed = true ->
    after.stream.writeClosed = true /\ after.chunks = before.chunks
  receives : Receives peerFirst peer.chunks after.arrived after.returned after.stream.readSide

variable {flight : Flight} {connection : Connection}

theorem Genuine.mono {first : Seq} {chunks more : List Bytes} {closed still : Bool}
    (genuine : Genuine first chunks closed flight) (grown : chunks <+: more)
    (kept : closed = true -> still = true /\ more = chunks) : Genuine first more still flight := by
  rw [Genuine] at genuine ⊢
  split at genuine
  · refine ⟨genuine.1, ?_⟩
    rcases grown with ⟨_, whole⟩
    rw [<- whole, getElem?_append_left (List.getElem?_eq_some_iff.mp genuine.2).1]
    exact genuine.2
  · have same := kept genuine.2.2
    rw [same.2]
    exact ⟨genuine.1, genuine.2.1, same.1⟩
  · trivial
  · exact genuine

namespace Connection

/-- Both directions are in order. -/
def Sound (connection : Connection) : Prop :=
  ∀ side : Side, Direction side.firstSeq (connection.party side) (connection.party side.other)
      (connection.toward side.other)

section
variable (connection : Connection)
variable (side : Side)

section
variable (party : Party)
variable (flights : List Flight)

@[simp] theorem party_moved : (connection.moved side party flights).party side = party :=
  Function.update_self ..

@[simp] theorem party_moved_other :
    (connection.moved side party flights).party side.other = connection.party side.other :=
  Function.update_of_ne side.other_ne ..

@[simp] theorem toward_moved : (connection.moved side party flights).toward side = connection.toward side :=
  Function.update_of_ne side.other_ne.symm ..

@[simp] theorem toward_moved_other : (connection.moved side party flights).toward side.other =
    connection.toward side.other ++ flights :=
  Function.update_self ..

end

theorem toward_taken_subset (position : Nat) (receiver : Side) :
    (connection.taken side position).toward receiver ⊆ connection.toward receiver := by
  intro flight underway
  by_cases same : receiver = side
  · subst same
    have erased : (connection.taken receiver position).toward receiver =
      (connection.toward receiver).eraseIdx position := Function.update_self ..
    rw [erased] at underway
    exact mem_of_mem_eraseIdx underway
  · have kept : (connection.taken side position).toward receiver = connection.toward receiver :=
      Function.update_of_ne same ..
    rwa [kept] at underway

end

theorem sound_taken (sound : connection.Sound) (side : Side) (position : Nat) :
    (connection.taken side position).Sound := by
  intro sender
  have direction := sound sender
  refine { direction with genuine := ?_ }
  intro flight underway
  exact direction.genuine flight (toward_taken_subset connection side position _ underway)

theorem sound_moved (sound : connection.Sound) {side : Side} {party : Party} {flights : List Flight}
    (progress : Progress side.firstSeq side.other.firstSeq (connection.party side.other)
      (connection.party side) party flights) : (connection.moved side party flights).Sound := by
  intro sender
  rcases sender.eq_or_eq_other side with same | receiver
  · -- The side that moved is the sender.
    subst same
    have direction := sound sender
    rw [party_moved, party_moved_other, toward_moved_other]
    refine ⟨progress.sends, progress.accepted, ?_, direction.receives.mono progress.grown⟩
    intro flight underway
    rcases mem_append.mp underway with old | fresh
    · exact (direction.genuine flight old).mono progress.grown progress.closed
    · exact progress.genuine flight fresh
  · -- The side that moved is the receiver.
    subst receiver
    have direction := sound side.other
    rw [Side.other_other] at direction ⊢
    rw [party_moved, party_moved_other, toward_moved]
    exact { direction with receives := progress.receives }

end Connection

/-! ## One step -/

section
variable {first peerFirst : Seq} {peer party after : Party} {stream : StreamState} {sent : Sent}

theorem Emits.progress (emits : Emits first party.chunks party.stream stream sent)
    (streams : after.stream = stream) (chunks : after.chunks = (party.record stream sent).chunks)
    (accepted : after.accepted = after.chunks.flatten)
    (receives : Receives peerFirst peer.chunks after.arrived after.returned after.stream.readSide) :
    Progress first peerFirst peer party after (party.flights stream sent) where
  sends := by
    rw [streams, chunks]
    exact emits.sends
  accepted := accepted
  genuine := by
    rw [streams, chunks]
    exact emits.genuine
  grown := by
    rw [chunks]
    exact prefix_append _ _
  closed := by
    intro closed
    have quiet := emits.closed closed
    rw [streams, chunks]
    refine ⟨quiet.1, ?_⟩
    rw [Party.record, quiet.2, map_nil, append_nil]
  receives := receives

/-- The count of packets in order follows the number that is expected. -/
theorem arrived_record {arrived last : Nat} (before : party.stream.expectedSeqNr = serial peerFirst arrived)
    (behind : stream.expectedSeqNr = serial peerFirst last)
    (later : arrived <= last) (near : last < arrived + 2 ^ 16) : party.arrived
    + (stream.expectedSeqNr - party.stream.expectedSeqNr).toNat = party.arrived + (last - arrived) := by
  have sum : last = arrived + (last - arrived) := by omega
  rw [before, behind, sum, toNat_serial_sub peerFirst (by omega)]
  omega

theorem arrived_record_of_expected (sent : Sent) (same : stream.expectedSeqNr = party.stream.expectedSeqNr) :
    (party.record stream sent).arrived = party.arrived := by
  rw [Party.record, same, BitVec.sub_self]
  rfl

theorem arrived_record_same (sent : Sent) (same : stream.readSide = party.stream.readSide) :
    (party.record stream sent).arrived = party.arrived :=
  arrived_record_of_expected sent (congrArg StreamState.ReadSide.expectedSeqNr same)

/-- What a side relies on: as a sender and as the receiver of its peer. -/
structure Standing (first peerFirst : Seq) (peer party : Party) : Prop where
  sends : Sends first party.chunks party.stream.sendSide
  accepted : party.accepted = party.chunks.flatten
  receives : Receives peerFirst peer.chunks party.arrived party.returned party.stream.readSide

section
variable (standing : Standing first peerFirst peer party)
include standing

theorem Standing.receives_record (sent : Sent) (same : stream.readSide = party.stream.readSide) :
    Receives peerFirst peer.chunks (party.record stream sent).arrived party.returned stream.readSide := by
  rw [arrived_record_same sent same, same]
  exact standing.receives

theorem Standing.write (elapsed : Bool) (buf : Bytes) :
    let outcome := party.stream.pollWrite elapsed buf
    Progress first peerFirst peer party ((party.record outcome.2.1 outcome.2.2).takeIn buf outcome.1)
      (party.flights outcome.2.1 outcome.2.2) := by
  intro outcome
  refine (emits_pollWrite standing.sends elapsed buf).progress rfl rfl ?_
    (standing.receives_record outcome.2.2 (readSide_pollWrite elapsed buf party.stream))
  show party.accepted ++ buf.take _ = (party.chunks ++ _).flatten
  rw [flatten_append, payloads_pollWrite standing.sends, standing.accepted]

theorem Standing.accepted_record (stream : StreamState) (quiet : sent.fresh = []) :
    (party.record stream sent).accepted = (party.record stream sent).chunks.flatten := by
  rw [Party.record, quiet, map_nil, append_nil]
  exact standing.accepted

theorem Standing.close : Progress first peerFirst peer party
    (party.record party.stream.closeWrite.1 party.stream.closeWrite.2)
    (party.flights party.stream.closeWrite.1 party.stream.closeWrite.2) := by
  refine (emits_closeWrite standing.sends).progress rfl rfl ?_
    (standing.receives_record party.stream.closeWrite.2 (readSide_closeWrite party.stream))
  apply standing.accepted_record
  rw [closeWrite]
  split <;> rfl

theorem Standing.receives_handOver {result : StreamState.ReadResult}
    (outcome : ReadOutcome party.stream.readSide result stream.readSide) :
    Receives peerFirst peer.chunks ((party.record stream sent).handOver result).arrived
    ((party.record stream sent).handOver result).returned stream.readSide := by
  have receives := standing.receives
  have arrived : (party.record stream sent).arrived = party.arrived :=
    arrived_record_of_expected sent outcome.expected
  generalize stream.readSide = side at outcome
  cases outcome with
  | bytes count =>
    show Receives peerFirst peer.chunks (party.record stream sent).arrived
      (party.returned ++ party.stream.recvBuf.take count) _
    rw [arrived]
    refine { receives with bytes := ?_ }
    show _ ++ party.stream.recvBuf.drop count = _
    rw [append_assoc, take_append_drop]
    exact receives.bytes
  | pending | ended =>
    show Receives peerFirst peer.chunks (party.record stream sent).arrived party.returned _
    rw [arrived]
    exact receives

end

theorem Party.handOver_frame (party : Party) (result : StreamState.ReadResult) :
    (party.handOver result).stream = party.stream /\ (party.handOver result).chunks = party.chunks /\
    (party.handOver result).accepted = party.accepted := by
  cases result <;> exact ⟨rfl, rfl, rfl⟩

variable (standing : Standing first peerFirst peer party)
include standing

theorem Standing.read (elapsed : Bool) (room : Nat) :
    let outcome := party.stream.pollRead elapsed room
    Progress first peerFirst peer party ((party.record outcome.2.1 outcome.2.2).handOver outcome.1)
      (party.flights outcome.2.1 outcome.2.2) := by
  intro outcome
  have frame := Party.handOver_frame (party.record outcome.2.1 outcome.2.2) outcome.1
  have quiet : (party.stream.pollRead elapsed room).2.2.fresh = [] := by
    rw [pollRead]
    split <;> rfl
  refine (emits_pollRead standing.sends elapsed room).progress frame.1 frame.2.1 ?_ ?_
  · rw [frame.2.1, frame.2.2]
    exact standing.accepted_record _ quiet
  · rw [frame.1]
    exact standing.receives_handOver (readOutcome_pollRead elapsed room party.stream)

variable (genuine : Genuine peerFirst peer.chunks peer.stream.writeClosed flight)
include genuine

variable (near : peer.chunks.length < party.arrived + 2 ^ 15)
include near

variable (recent : flight.packet.type = .data -> peer.chunks.length < flight.number + 2 ^ 15)
include recent

/-- A packet of the peer that is near enough is handled by its true number. -/
theorem Standing.receives_receive
    (delay : Nat) (expired : Bool) : Exists fun last : Nat => party.arrived <= last /\
      Receives peerFirst peer.chunks last party.returned
        (party.stream.receive flight.packet delay expired).1.readSide := by
  rw [receive]
  generalize known : { party.stream with
    remoteWnd := flight.packet.wndSize, lastMeasuredDelay := delay } = heard
  have same : ((heard.receiveAck flight.packet expired).fastResend flight.packet).1.readSide =
      party.stream.readSide := by
    rw [(fastResend_sides _ _).2, (receiveAck_sides _ _ _).2, <- known]
    rfl
  have receives := standing.receives
  rw [<- same] at receives
  rw [Genuine] at genuine
  rw [receiveType]
  cases type : flight.packet.type with
  | data =>
    rw [type] at genuine
    have within := (List.getElem?_eq_some_iff.mp genuine.2).1
    have close := recent type
    have fits := receives.fits
    exact receives.sortIn genuine.1 genuine.2 (by omega) (by omega)
  | fin =>
    exact ⟨party.arrived, Nat.le_refl _, receives.fits, receives.expected, receives.bytes,
      receives.waiting, receives.alive⟩
  | state => exact ⟨party.arrived, Nat.le_refl _, receives⟩
  | reset =>
    rw [type] at genuine
    exact genuine.elim

theorem Standing.deliver (delay : Nat) (expired : Bool) :
    let outcome := party.stream.receive flight.packet delay expired
    Progress first peerFirst peer party (party.record outcome.1 outcome.2)
      (party.flights outcome.1 outcome.2) := by
  intro outcome
  refine (emits_receive standing.sends flight.packet delay expired).progress rfl rfl
    (standing.accepted_record _ rfl) ?_
  rcases standing.receives_receive genuine near recent delay expired with ⟨last, later, receives⟩
  have fits := receives.fits
  have arrived := arrived_record standing.receives.expected receives.expected later (by omega)
  have exact : party.arrived + (last - party.arrived) = last := by omega
  show Receives peerFirst peer.chunks (party.arrived + _) party.returned _
  rw [arrived, exact]
  exact receives

end

namespace Connection

theorem Sound.standing (sound : connection.Sound) (side : Side) :
    Standing side.firstSeq side.other.firstSeq (connection.party side.other) (connection.party side) := by
  have own := sound side
  have peer := sound side.other
  rw [Side.other_other] at peer
  exact ⟨own.sends, own.accepted, peer.receives⟩

/-- A side has fewer than 2^15 numbers outstanding: the number that its peer
expects and those of the data packets under way are close to the next one. -/
def Bounded (connection : Connection) (side : Side) : Prop :=
  (connection.party side).chunks.length < (connection.party side.other).arrived + 2 ^ 15 /\
    ∀ flight : Flight, flight ∈ connection.toward side.other -> flight.packet.type = .data ->
      (connection.party side).chunks.length < flight.number + 2 ^ 15

instance (connection : Connection) (side : Side) : Decidable (connection.Bounded side) :=
  inferInstanceAs (Decidable (_ /\ ∀ _ : Flight, _ ∈ connection.toward side.other -> _))

/-- Both sides have fewer than 2^15 numbers outstanding. -/
def Outstanding (connection : Connection) (_ : UtpLabel) : Prop :=
  connection.Bounded .initiator /\ connection.Bounded .acceptor

instance (connection : Connection) (label : UtpLabel) : Decidable (connection.Outstanding label) :=
  inferInstanceAs (Decidable (_ /\ _))

theorem Outstanding.bounded {label : UtpLabel} (outstanding : connection.Outstanding label)
    (side : Side) : connection.Bounded side := by
  cases side
  · exact outstanding.1
  · exact outstanding.2

theorem init_opened (loopback : Bool) : machine.init (opened loopback) :=
  ⟨loopback, rfl⟩

theorem sound_opened (loopback : Bool) : (opened loopback).Sound := by
  intro side
  cases side <;> refine ⟨⟨by cases loopback <;> decide, 0, Nat.le_refl _, rfl⟩, rfl, ?_,
    Nat.le_refl _, by cases loopback <;> decide, rfl, ?_, rfl⟩
  · nofun
  · nofun
  · intro flight underway
    rw [mem_singleton.mp underway]
    trivial
  · nofun

theorem sound_step {after : Connection} {label : UtpLabel} (sound : connection.Sound)
    (outstanding : connection.Outstanding label) (taken : connection.step label = some after) :
    after.Sound := by
  cases label with
  | write side buf elapsed =>
    cases taken
    exact sound_moved sound ((sound.standing side).write elapsed buf)
  | close side =>
    cases taken
    exact sound_moved sound (sound.standing side).close
  | read side room elapsed =>
    cases taken
    exact sound_moved sound ((sound.standing side).read elapsed room)
  | deliver side position keep delay expired =>
    rcases map_eq_some_iff.mp taken with ⟨flight, found, rfl⟩
    have underway : flight ∈ connection.toward side := mem_of_getElem? found
    have direction := sound side.other
    have bounded := outstanding.bounded side.other
    rw [Bounded, Side.other_other] at bounded
    rw [Side.other_other] at direction
    have progress := (sound.standing side).deliver (direction.genuine flight underway) bounded.1
      (bounded.2 flight underway) delay expired
    cases keep with
    | true => exact sound_moved sound progress
    | false => exact sound_moved (sound_taken sound side position) progress
  | lose side position =>
    rcases map_eq_some_iff.mp taken with ⟨_, _, rfl⟩
    exact sound_taken sound side position

theorem sound_of_run {labels : List UtpLabel} (run : machine.RunsTo Outstanding labels connection) :
    connection.Sound := by
  refine run.stateInvariant (motive := Sound) ?_ ?_
  · rintro state ⟨loopback, opened⟩
    subst opened
    exact sound_opened loopback
  · intro state label after sound outstanding taken
    exact sound_step sound outstanding taken

theorem Sound.returned_isPrefixOf_accepted (sound : connection.Sound) (side : Side) :
    (connection.party side.other).returned <+: (connection.party side).accepted := by
  have direction := sound side
  have bytes := direction.receives.bytes
  have whole := take_append_drop (connection.party side.other).arrived (connection.party side).chunks
  rw [direction.accepted, <- whole, flatten_append, <- bytes, append_assoc]
  exact prefix_append _ _

/-! ## The end of the stream -/

/-- A packet that closes a stream is handled only when it is the next one. -/
def FinInOrder (connection : Connection) : UtpLabel -> Prop
  | .deliver side position _ _ _ =>
    ∀ flight : Flight, flight ∈ (connection.toward side)[position]? -> flight.packet.type = .fin ->
        flight.packet.seqNr = (connection.party side).stream.expectedSeqNr
  | .write .. | .close .. | .read .. | .lose .. => True

instance (connection : Connection) : (label : UtpLabel) -> Decidable (connection.FinInOrder label)
  | .deliver side position _ _ _ =>
    inferInstanceAs (Decidable (∀ flight ∈ (connection.toward side)[position]?, _))
  | .write .. | .close .. | .read .. | .lose .. => inferInstanceAs (Decidable True)

end Connection

/-- A receiver that takes the stream for closed has everything in order, and one
that reported the end has handed everything over. -/
structure Complete (sender receiver : Party) : Prop where
  closed : receiver.stream.readClosed = true ->
    sender.stream.writeClosed = true /\ receiver.arrived = sender.chunks.length
  ended : receiver.ended = true -> receiver.stream.readClosed = true /\ receiver.stream.recvBuf = []

section
variable {first peerFirst : Seq} {peer party after : Party}
variable (complete : Complete peer party)
include complete

theorem Complete.of_same
    (same : after.stream.readSide = party.stream.readSide) (arrived : after.arrived = party.arrived)
    (ended : after.ended = party.ended) : Complete peer after := by
  have closed : after.stream.readClosed = party.stream.readClosed :=
    congrArg StreamState.ReadSide.readClosed same
  have buffer : after.stream.recvBuf = party.stream.recvBuf :=
    congrArg StreamState.ReadSide.recvBuf same
  constructor
  · rw [closed, arrived]
    exact complete.closed
  · rw [ended, closed, buffer]
    exact complete.ended

theorem Complete.read (alive : party.stream.isReset = false) (elapsed : Bool) (room : Nat) :
    let outcome := party.stream.pollRead elapsed room
    Complete peer ((party.record outcome.2.1 outcome.2.2).handOver outcome.1) := by
  have outcome := readOutcome_pollRead elapsed room party.stream
  generalize party.stream.pollRead elapsed room = read at outcome ⊢
  rcases read with ⟨result, stream, sent⟩
  have arrived : (party.record stream sent).arrived = party.arrived :=
    arrived_record_of_expected sent outcome.expected
  generalize side : stream.readSide = left at outcome
  have closed : stream.readClosed = left.readClosed := by rw [<- side]; rfl
  have buffer : stream.recvBuf = left.recvBuf := by rw [<- side]; rfl
  cases outcome with
  | bytes count =>
    refine ⟨fun known => ?_, fun known => ?_⟩
    · have before := complete.closed (closed.symm.trans known)
      exact ⟨before.1, arrived.trans before.2⟩
    · have before := complete.ended known
      refine ⟨closed.trans before.1, buffer.trans ?_⟩
      show party.stream.recvBuf.drop count = []
      rw [before.2, drop_nil]
  | pending => exact complete.of_same side arrived rfl
  | ended empty finish =>
    have finished : party.stream.readClosed = true := by
      rcases finish with known | reset
      · exact known
      · exact absurd (alive.symm.trans reset) Bool.false_ne_true
    refine ⟨fun _ => ?_, fun _ => ⟨closed.trans finished, buffer.trans empty⟩⟩
    have before := complete.closed finished
    exact ⟨before.1, arrived.trans before.2⟩

theorem Complete.deliver (standing : Standing first peerFirst peer party)
    (genuine : Genuine peerFirst peer.chunks peer.stream.writeClosed flight)
    (near : peer.chunks.length < party.arrived + 2 ^ 15)
    (inOrder : flight.packet.type = .fin -> flight.packet.seqNr = party.stream.expectedSeqNr)
    {delay : Nat} {expired : Bool} {flights : List Flight} {stream : StreamState} {sent : Sent}
    (outcome : party.stream.receive flight.packet delay expired = (stream, sent))
    (progress : Progress first peerFirst peer party (party.record stream sent) flights) :
    Complete peer (party.record stream sent) := by
  have closing := readClosed_receive flight.packet delay expired party.stream
  rw [outcome] at closing
  have later : party.arrived <= (party.record stream sent).arrived := Nat.le_add_right _ _
  have fits := progress.receives.fits
  have whole : party.stream.readClosed = true \/ flight.packet.type = .fin ->
      peer.stream.writeClosed = true /\ party.arrived = peer.chunks.length := by
    rintro (before | fin)
    · exact complete.closed before
    · rw [Genuine, fin] at genuine
      have expected : party.stream.expectedSeqNr = serial peerFirst party.arrived :=
        standing.receives.expected
      have numbered : serial peerFirst peer.chunks.length = serial peerFirst party.arrived := by
        rw [<- genuine.2.1, <- genuine.1, inOrder fin, expected]
      have equal := (serial_inj peerFirst (by omega) (by omega)).mp numbered
      exact ⟨genuine.2.2, equal.symm⟩
  refine ⟨fun known => ?_, fun known => ?_⟩
  · rw [Party.record, closing, Bool.or_eq_true_iff, decide_eq_true_iff] at known
    have last := whole known
    exact ⟨last.1, by omega⟩
  · -- Nothing is left to arrive, so the buffer stays empty.
    have before := complete.ended known
    have last := whole (Or.inl before.1)
    have arrived : (party.record stream sent).arrived = party.arrived := by omega
    refine ⟨closing.trans (by rw [before.1, Bool.true_or]), ?_⟩
    have bytes := progress.receives.bytes
    rw [arrived, <- standing.receives.bytes] at bytes
    have same := append_cancel_left bytes
    exact same.trans before.2

end

namespace Connection

def Ends (connection : Connection) : Prop :=
  ∀ side : Side, Complete (connection.party side) (connection.party side.other)

theorem ends_moved (ends : connection.Ends) {side : Side} {party : Party} {flights : List Flight}
    (progress : Progress side.firstSeq side.other.firstSeq (connection.party side.other)
      (connection.party side) party flights)
    (complete : Complete (connection.party side.other) party) :
    (connection.moved side party flights).Ends := by
  intro sender
  rcases sender.eq_or_eq_other side with same | receiver
  · subst same
    have before := ends sender
    rw [party_moved, party_moved_other]
    refine ⟨fun known => ?_, before.ended⟩
    have closed := before.closed known
    have kept := progress.closed closed.1
    exact ⟨kept.1, closed.2.trans (congrArg List.length kept.2.symm)⟩
  · subst receiver
    rw [Side.other_other, party_moved, party_moved_other]
    exact complete

theorem ends_step {after : Connection} {label : UtpLabel}
    (sound : connection.Sound) (ends : connection.Ends) (outstanding : connection.Outstanding label)
    (inOrder : connection.FinInOrder label) (taken : connection.step label = some after) : after.Ends := by
  have own : ∀ side : Side, Complete (connection.party side.other) (connection.party side) := by
    intro side
    have complete := ends side.other
    rwa [Side.other_other] at complete
  cases label with
  | write side buf elapsed =>
    cases taken
    have same := readSide_pollWrite elapsed buf (connection.party side).stream
    exact ends_moved ends ((sound.standing side).write elapsed buf) ((own side).of_same same
        (arrived_record_same ((connection.party side).stream.pollWrite elapsed buf).2.2 same) rfl)
  | close side =>
    cases taken
    have same := readSide_closeWrite (connection.party side).stream
    exact ends_moved ends (sound.standing side).close ((own side).of_same same
        (arrived_record_same (connection.party side).stream.closeWrite.2 same) rfl)
  | read side room elapsed =>
    cases taken
    exact ends_moved ends ((sound.standing side).read elapsed room)
      ((own side).read (sound.standing side).receives.alive elapsed room)
  | deliver side position keep delay expired =>
    rcases map_eq_some_iff.mp taken with ⟨flight, found, rfl⟩
    have underway : flight ∈ connection.toward side := mem_of_getElem? found
    have direction := sound side.other
    have bounded := outstanding.bounded side.other
    rw [Bounded, Side.other_other] at bounded
    rw [Side.other_other] at direction
    have genuine := direction.genuine flight underway
    have progress := (sound.standing side).deliver genuine bounded.1 (bounded.2 flight underway) delay expired
    have complete := (own side).deliver (sound.standing side) genuine bounded.1
      (inOrder flight found) rfl progress
    cases keep with
    | true => exact ends_moved ends progress complete
    | false =>
      have left : (connection.taken side position).Ends := ends
      exact ends_moved left progress complete
  | lose =>
    rcases map_eq_some_iff.mp taken with ⟨_, _, rfl⟩
    exact ends

theorem ends_opened (loopback : Bool) : (opened loopback).Ends := by
  intro side
  cases side <;> constructor <;> intro known <;> cases known

/-- Fewer than 2^15 numbers are outstanding, and the packet that closes a stream
is handled in order. -/
def Orderly (connection : Connection) (label : UtpLabel) : Prop :=
  connection.Outstanding label /\ connection.FinInOrder label

instance (connection : Connection) (label : UtpLabel) : Decidable (connection.Orderly label) :=
  inferInstanceAs (Decidable (_ /\ _))

/-- In every orderly run a reader gets a beginning of what was accepted, and is
told of the end only after it got everything that was accepted before the other
side closed. -/
theorem reader_gets_all_of_orderly_run {labels : List UtpLabel} {connection : Connection}
    (run : machine.RunsTo Orderly labels connection) (side : Side) :
    (connection.party side.other).returned <+: (connection.party side).accepted ∧
      ((connection.party side.other).ended = true -> (connection.party side).stream.writeClosed = true ∧
          (connection.party side.other).returned = (connection.party side).accepted) := by
  have both : connection.Sound /\ connection.Ends := by
    refine run.stateInvariant (motive := fun connection => connection.Sound /\ connection.Ends) ?_ ?_
    · rintro state ⟨loopback, opened⟩
      subst opened
      exact ⟨sound_opened loopback, ends_opened loopback⟩
    · intro state label after invariant orderly taken
      exact ⟨sound_step invariant.1 orderly.1 taken,
        ends_step invariant.1 invariant.2 orderly.1 orderly.2 taken⟩
  refine ⟨both.1.returned_isPrefixOf_accepted side, fun known => ?_⟩
  have ended := (both.2 side).ended known
  have closed := (both.2 side).closed ended.1
  have direction := both.1 side
  have bytes := direction.receives.bytes
  have buffer : (connection.party side.other).stream.readSide.recvBuf = [] := ended.2
  refine ⟨closed.1, ?_⟩
  rw [buffer, append_nil, closed.2, take_length] at bytes
  rw [bytes, direction.accepted]

/-- The initiator writes one byte and closes; both packets arrive in order. -/
def byteThenEnd : List UtpLabel :=
  [.write .initiator [7] false, .close .initiator, .deliver .acceptor 0 true 0 false,
    .deliver .acceptor 1 false 0 false, .read .acceptor 16 false, .read .acceptor 16 false]

theorem reader_gets_byteThenEnd : Exists fun connection : Connection =>
      machine.RunsTo Orderly byteThenEnd connection ∧ (connection.party .acceptor).ended = true ∧
          (connection.party .acceptor).returned = (connection.party .initiator).accepted := by
  have run : machine.RunsTo Orderly byteThenEnd
      ((machine.exec (opened false) byteThenEnd).get (by decide)) :=
    .of_exec_isSome (init_opened false) (by decide) _
  have ended : (((machine.exec (opened false) byteThenEnd).get
      (by decide)).party .acceptor).ended = true := by
    decide
  exact ⟨_, run, ended, ((reader_gets_all_of_orderly_run run .initiator).2 ended).2⟩

/-- However packets are lost, repeated and reordered, the reader gets a beginning
of what was accepted. -/
theorem returned_isPrefixOf_accepted_of_run {labels : List UtpLabel} {connection : Connection}
    (run : machine.RunsTo Outstanding labels connection) (side : Side) :
    (connection.party side.other).returned <+: (connection.party side).accepted :=
  (sound_of_run run).returned_isPrefixOf_accepted side

theorem returned_byteThenEnd : Exists fun connection : Connection =>
    machine.RunsTo Outstanding byteThenEnd connection ∧ (connection.party .acceptor).returned = [7] ∧
      [7] <+: (connection.party .initiator).accepted := by
  have run : machine.RunsTo Outstanding byteThenEnd
      ((machine.exec (opened false) byteThenEnd).get (by decide)) :=
    .of_exec_isSome (init_opened false) (by decide) _
  exact ⟨_, run, by decide, returned_isPrefixOf_accepted_of_run run .initiator⟩

/-- The initiator writes one byte and closes; the second packet arrives first. -/
def endBeforeByte : List UtpLabel :=
  [.write .initiator [7] false, .close .initiator, .deliver .acceptor 1 false 0 false,
    .read .acceptor 16 false]

/-- The acceptor's reader is told of the end before it got the byte. -/
theorem end_before_byte : Exists fun connection : Connection =>
      machine.RunsTo Outstanding endBeforeByte connection ∧
        (connection.party .acceptor).ended = true ∧ (connection.party .acceptor).returned = [] ∧
            (connection.party .initiator).accepted = [7] := by
  have run : machine.RunsTo Outstanding endBeforeByte
      ((machine.exec (opened false) endBeforeByte).get (by decide)) :=
    .of_exec_isSome (init_opened false) (by decide) _
  exact ⟨_, run, by decide, by decide, by decide⟩

end Connection
end TorrentPlayer.Wire
