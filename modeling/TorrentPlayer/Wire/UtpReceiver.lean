import TorrentPlayer.Wire.UtpStream

namespace TorrentPlayer.Wire

open Library StreamState List

/-!
# What a uTP stream puts in order

The receiver has put a number of packets in order.  The packets that wait in the
map are later ones, and less than half the number space ahead.  So a sixteen-bit
number names at most one of them, and the next packet never waits.
-/

/-- The state of a receiver that has put the first `arrived` payloads of a sender
in order.  `nearest` is the lowest number that may wait. -/
structure Ordered (first : Seq) (chunks : List Bytes) (arrived nearest : Nat) (returned : Bytes)
    (side : StreamState.ReadSide) : Prop where
  fits : arrived <= chunks.length
  expected : side.expectedSeqNr = serial first arrived
  bytes : returned ++ side.recvBuf = (chunks.take arrived).flatten
  waiting : ∀ (seq : Seq) (payload : Bytes), side.outOfOrder.lookup seq = some payload ->
    Exists fun number : Nat =>
      nearest <= number /\ number < arrived + 2 ^ 15 /\ seq = serial first number /\
        chunks[number]? = some payload
  alive : side.isReset = false

/-- Between two packets only later packets wait. -/
def Receives (first : Seq) (chunks : List Bytes) (arrived : Nat) (returned : Bytes)
    (side : StreamState.ReadSide) : Prop :=
  Ordered first chunks arrived (arrived + 1) returned side

section
variable {first : Seq} {chunks : List Bytes} {arrived nearest : Nat} {returned : Bytes}
variable {st : StreamState}

/-- The sender went on. -/
theorem Ordered.mono {side : StreamState.ReadSide} {more : List Bytes}
    (ordered : Ordered first chunks arrived nearest returned side) (grown : chunks <+: more) :
    Ordered first more arrived nearest returned side where
  fits := Nat.le_trans ordered.fits grown.length_le
  __ := ordered
  bytes := by
    rcases grown with ⟨rest, whole⟩
    rw [ordered.bytes, <- whole, take_append_of_le_length ordered.fits]
  waiting := by
    intro seq payload found
    rcases ordered.waiting seq payload found with ⟨number, later, near, same, kept⟩
    refine ⟨number, later, near, same, ?_⟩
    rcases grown with ⟨rest, whole⟩
    rw [<- whole, getElem?_append_left (List.getElem?_eq_some_iff.mp kept).1]
    exact kept

theorem Ordered.append {payload : Bytes}
    (ordered : Ordered first chunks arrived (arrived + 1) returned st.readSide)
    (due : chunks[arrived]? = some payload) :
    Ordered first chunks (arrived + 1) (arrived + 1) returned (st.append payload).readSide where
  fits := (List.getElem?_eq_some_iff.mp due).1
  expected := by
    have expected : st.expectedSeqNr = serial first arrived := ordered.expected
    rw [serial_succ, <- expected]
    rfl
  bytes := by
    have bytes : returned ++ st.recvBuf = (chunks.take arrived).flatten := ordered.bytes
    show returned ++ (st.recvBuf ++ payload) = _
    rw [<- append_assoc, bytes, take_add_one, due, flatten_append]
    exact congrArg _ (append_nil payload).symm
  waiting := by
    intro seq payload found
    rcases ordered.waiting seq payload found with ⟨number, later, near, same⟩
    exact ⟨number, later, by omega, same⟩
  alive := ordered.alive

section
variable (ordered : Ordered first chunks arrived arrived returned st.readSide)
include ordered

/-- The due packet is not among the later ones. -/
theorem Ordered.receives_of_absent (absent : st.outOfOrder.lookup st.expectedSeqNr = none) :
    Receives first chunks arrived returned st.readSide where
  __ := ordered
  waiting := by
    intro seq payload found
    rcases ordered.waiting seq payload found with ⟨number, later, near, same, kept⟩
    refine ⟨number, ?_, near, same, kept⟩
    apply Nat.lt_of_le_of_ne later
    intro equal
    have due : seq = st.expectedSeqNr := by rw [same, <- equal]; exact ordered.expected.symm
    rw [<- due] at absent
    have both : st.outOfOrder.lookup seq = some payload := found
    rw [absent] at both
    cases both

theorem Ordered.due_of_found {payload : Bytes}
    (found : st.outOfOrder.lookup st.expectedSeqNr = some payload) : chunks[arrived]? = some payload := by
  rcases ordered.waiting st.expectedSeqNr payload found with ⟨number, later, near, same, kept⟩
  have expected : st.expectedSeqNr = serial first arrived := ordered.expected
  have equal : number = arrived :=
    (serial_inj first (by omega) (by omega)).mp (same.symm.trans expected)
  rw [<- equal]
  exact kept

/-- Taking the due packet off the map leaves later ones. -/
theorem Ordered.erase : Ordered first chunks arrived (arrived + 1) returned
      ({ st with outOfOrder := st.outOfOrder.erase st.expectedSeqNr } : StreamState).readSide where
  __ := ordered
  waiting := by
    intro seq payload found
    have erased : (st.outOfOrder.erase st.expectedSeqNr).lookup seq = some payload := found
    rw [FiniteMap.lookup_erase_eq] at erased
    split at erased
    · cases erased
    rename_i other
    rcases ordered.waiting seq payload erased with ⟨number, later, near, same, kept⟩
    refine ⟨number, ?_, near, same, kept⟩
    apply Nat.lt_of_le_of_ne later
    intro equal
    apply other
    rw [same, <- equal]
    exact ordered.expected

end

/-- The loop ends with the due packet missing, because it has a round for every
packet that waits. -/
theorem Ordered.drain (rounds : Nat) (ordered : Ordered first chunks arrived arrived returned st.readSide)
    (enough : st.outOfOrder.entries.length <= rounds) : Exists fun last : Nat => arrived <= last /\
      Receives first chunks last returned (drain rounds st).readSide := by
  induction rounds generalizing st arrived with
  | zero =>
    refine ⟨arrived, Nat.le_refl _, ordered.receives_of_absent ?_⟩
    have none : st.outOfOrder.entries = [] := eq_nil_of_length_eq_zero (Nat.le_zero.mp enough)
    rw [AList.lookup, none]
    rfl
  | succ rounds ih =>
    rw [drain]
    cases found : st.outOfOrder.lookup st.expectedSeqNr with
    | none => exact ⟨arrived, Nat.le_refl _, ordered.receives_of_absent found⟩
    | some =>
      have fewer : (st.outOfOrder.erase st.expectedSeqNr).entries.length <= rounds := by
        have one := FiniteMap.length_erase st.outOfOrder found
        omega
      rcases ih (ordered.erase.append (ordered.due_of_found found)) fewer with
        ⟨last, later, receives⟩
      exact ⟨last, by omega, receives⟩

theorem Receives.sortIn {packet : Packet} {number : Nat}
    (receives : Receives first chunks arrived returned st.readSide)
    (numbered : packet.seqNr = serial first number)
    (carried : chunks[number]? = some packet.payload) (near : number < arrived + 2 ^ 15)
    (recent : arrived < number + 2 ^ 15) : Exists fun last : Nat =>
    arrived <= last /\ Receives first chunks last returned (st.sortIn packet).readSide := by
  have expected : st.expectedSeqNr = serial first arrived := receives.expected
  have distance : (packet.seqNr - st.expectedSeqNr).toInt = (number : Int) - arrived := by
    rw [numbered, expected]
    exact toInt_serial_sub first (by omega) (by omega)
  rw [StreamState.sortIn]
  split
  next due =>
    have equal : number = arrived :=
      (serial_inj first (by omega) (by omega)).mp (numbered.symm.trans (due.trans expected))
    rw [equal] at carried
    rcases Ordered.drain _ (Ordered.append receives carried) (Nat.le_refl _) with
      ⟨last, later, receives⟩
    exact ⟨last, by omega, receives⟩
  · refine ⟨arrived, Nat.le_refl _, ?_⟩
    split
    case isFalse => exact receives
    · refine { receives with waiting := ?_ }
      intro seq payload found
      have inserted : (st.outOfOrder.insert packet.seqNr packet.payload).lookup seq = some payload := found
      rw [FiniteMap.lookup_insert_eq] at inserted
      split at inserted
      next same =>
        cases inserted
        exact ⟨number, by omega, near, same.symm.trans numbered, carried⟩
      · exact receives.waiting seq payload inserted

theorem readClosed_drain (rounds : Nat) (st : StreamState) :
    (drain rounds st).readClosed = st.readClosed := by
  induction rounds generalizing st with
  | zero => rfl
  | succ rounds ih =>
    rw [drain]
    split
    · rfl
    · exact ih _

theorem readClosed_sortIn (packet : Packet) (st : StreamState) :
    (st.sortIn packet).readClosed = st.readClosed := by
  rw [sortIn]
  split
  · exact readClosed_drain _ _
  · split <;> rfl

theorem readClosed_receive (packet : Packet) (delay : Nat) (expired : Bool) (st : StreamState) :
    (st.receive packet delay expired).1.readClosed = (st.readClosed || decide (packet.type = .fin)) := by
  rw [receive]
  generalize known : { st with remoteWnd := packet.wndSize, lastMeasuredDelay := delay } = heard
  have same : ((heard.receiveAck packet expired).fastResend packet).1.readSide = heard.readSide := by
    rw [(fastResend_sides _ _).2, (receiveAck_sides _ _ _).2]
  have closed : ((heard.receiveAck packet expired).fastResend packet).1.readClosed = st.readClosed := by
    rw [<- known] at same ⊢
    exact congrArg StreamState.ReadSide.readClosed same
  rw [receiveType, <- closed]
  cases packet.type with
  | data =>
    rw [decide_eq_false (by decide), Bool.or_false]
    exact readClosed_sortIn packet _
  | fin =>
    rw [decide_eq_true rfl, Bool.or_true]
    rfl
  | state | reset => rw [decide_eq_false (by decide), Bool.or_false]

/-- A read takes the front of the buffer, or finds it empty. -/
inductive ReadOutcome (side : StreamState.ReadSide) :
    StreamState.ReadResult -> StreamState.ReadSide -> Prop
  | bytes (count : Nat) : ReadOutcome side (.bytes (side.recvBuf.take count))
        { side with recvBuf := side.recvBuf.drop count }
  | pending (empty : side.recvBuf = []) : ReadOutcome side .pending side
  | ended (empty : side.recvBuf = []) (closed : side.readClosed = true ∨ side.isReset = true) :
      ReadOutcome side .ended side

theorem ReadOutcome.expected {side after : StreamState.ReadSide} {result : StreamState.ReadResult}
    (outcome : ReadOutcome side result after) : after.expectedSeqNr = side.expectedSeqNr := by
  cases outcome <;> rfl

theorem readOutcome_pollRead (elapsed : Bool) (room : Nat) (st : StreamState) :
    ReadOutcome st.readSide (st.pollRead elapsed room).1 (st.pollRead elapsed room).2.1.readSide := by
  have timed := readSide_readTimeout elapsed st
  rw [pollRead, <- timed]
  split
  · rw [readSide_updateWindow]
    exact .bytes _
  rename_i empty
  have none : (st.readTimeout elapsed).1.recvBuf = [] := by
    cases buffered : (st.readTimeout elapsed).1.recvBuf with
    | nil => rfl
    | cons =>
      rw [buffered] at empty
      exact absurd rfl empty
  split
  next closed => exact .ended none (Bool.or_eq_true_iff.mp closed)
  · exact .pending none

end
end TorrentPlayer.Wire
