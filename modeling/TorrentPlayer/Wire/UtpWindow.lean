import TorrentPlayer.Library.Machine
import TorrentPlayer.Wire.UtpSender

namespace TorrentPlayer.Wire

open Library StreamState OutgoingPacket List

/-!
# The window of a uTP sender

The bytes in flight are those of the packets that are kept.  The congestion
window grows with short delays and is halved by a fast resend, between two
bounds.  What a peer sends may be anything: its acknowledgements only take
packets off the front, so the numbers of the others stay consecutive.
-/

/-- What a stream does with packets, without closing it. -/
inductive StreamLabel where
  | write (buf : Bytes) (elapsed : Bool)
  | read (room : Nat) (elapsed : Bool)
  | receive (packet : Packet) (delay : Nat) (expired : Bool)

/-- A stream of either side.  A timeout passes in a write or a read. -/
def streamMachine : Machine StreamState StreamLabel where
  init st := Exists fun loopback : Bool =>
    (Exists fun synSeq : Seq => st = .accept loopback synSeq) ∨
      Exists fun answer : Packet => st = .connect loopback answer
  step st
    | .write buf elapsed => some (st.pollWrite elapsed buf).2.1
    | .read room elapsed => some (st.pollRead elapsed room).2.1
    | .receive packet delay expired => some (st.receive packet delay expired).1

/-- The bytes in flight are counted, and the congestion window is in its bounds. -/
structure Counted (bytesInFlight : Nat) (unacked : List OutgoingPacket) (cwnd : Nat) : Prop where
  inFlight : bytesInFlight = (unacked.map len).sum
  atLeast : maxPayloadSize <= cwnd
  atMost : cwnd <= maxCwnd

def Balanced (st : StreamState) : Prop :=
  Counted st.bytesInFlight st.unacked st.cwnd

namespace Balanced

variable {st : StreamState}

section
variable (balanced : Balanced st)
include balanced

theorem pushChunk (payload : Bytes) : Balanced (st.pushChunk payload) := by
  refine ⟨?_, balanced.atLeast, balanced.atMost⟩
  simp [StreamState.pushChunk, balanced.inFlight]

theorem writeLoop (rounds : Nat) (left : Bytes) : Balanced (writeLoop rounds left st).1 := by
  induction rounds generalizing left st with
  | zero => exact balanced
  | succ rounds ih =>
    simp only [writeLoop]
    split
    · exact balanced
    · exact ih (balanced.pushChunk _) _

theorem pollWrite (elapsed : Bool) (buf : Bytes) : Balanced (st.pollWrite elapsed buf).2.1 := by
  simp only [StreamState.pollWrite]
  split
  · exact balanced
  · split <;> exact balanced.writeLoop _ _

theorem pollRead (elapsed : Bool) (room : Nat) : Balanced (st.pollRead elapsed room).2.1 := by
  have timed : Balanced (st.readTimeout elapsed).1 := by
    unfold readTimeout
    split <;> exact balanced
  simp only [StreamState.pollRead, StreamState.updateWindow]
  split
  · split <;> exact timed
  · exact timed

end

/-- What is taken off the front is taken off the count. -/
theorem popAcked_sum (ackNr : Seq) (packets : List OutgoingPacket) :
    (popAcked ackNr packets (packets.map len).sum).2 =
    ((popAcked ackNr packets (packets.map len).sum).1.map len).sum := by
  induction packets with
  | nil => rfl
  | cons front rest ih =>
    simp only [popAcked, map_cons, sum_cons, Nat.add_sub_cancel_left]
    split
    · exact ih
    · rfl

variable (balanced : Balanced st)
include balanced

theorem onSendDelay (delay : Nat) (expired : Bool) : Balanced (st.onSendDelay delay expired) := by
  unfold StreamState.onSendDelay
  split
  · exact balanced
  have low := balanced.atLeast
  have high := balanced.atMost
  have grown (grow : Nat) : maxPayloadSize <= min (st.cwnd + grow) maxCwnd := by omega
  refine ⟨balanced.inFlight, ?_, ?_⟩
  · dsimp only
    split_ifs <;> first | exact grown _ | exact low
  · dsimp only
    split_ifs <;> first | exact Nat.min_le_right _ _ | exact high

variable (packet : Packet)

theorem receiveAck (expired : Bool) : Balanced (st.receiveAck packet expired) := by
  have popped : Balanced { st with
      unacked := (popAcked packet.ackNr st.unacked st.bytesInFlight).1
      bytesInFlight := (popAcked packet.ackNr st.unacked st.bytesInFlight).2 } := by
    refine ⟨?_, balanced.atLeast, balanced.atMost⟩
    rw [balanced.inFlight]
    exact popAcked_sum packet.ackNr st.unacked
  simp only [StreamState.receiveAck]
  split
  · exact popped.onSendDelay packet.timestampDiffMicros expired
  · split <;> exact popped

theorem fastResend : Balanced (st.fastResend packet).1 := by
  unfold StreamState.fastResend
  split
  · exact balanced
  split
  · have high := balanced.atMost
    refine ⟨balanced.inFlight, Nat.le_max_right _ _, Nat.max_le.mpr ⟨?_, by decide⟩⟩
    exact Nat.le_trans (Nat.div_le_self _ _) high
  · exact balanced

theorem drain (rounds : Nat) : Balanced (drain rounds st) := by
  induction rounds generalizing st with
  | zero => exact balanced
  | succ rounds ih =>
    unfold drain
    split
    · exact balanced
    · exact ih balanced

theorem receiveType : Balanced (st.receiveType packet).1 := by
  have sorted : Balanced (st.sortIn packet) := by
    unfold sortIn
    split
    · have appended : Balanced (st.append packet.payload) := balanced
      exact appended.drain _
    · split <;> exact balanced
  unfold StreamState.receiveType
  split
  · exact sorted
  all_goals exact balanced

theorem receive (delay : Nat) (expired : Bool) : Balanced (st.receive packet delay expired).1 := by
  have heard : Balanced { st with remoteWnd := packet.wndSize, lastMeasuredDelay := delay } :=
    balanced
  exact ((heard.receiveAck packet expired).fastResend packet).receiveType packet

end Balanced

/-! ## Runs -/

/-- What holds of a sender between two operations. -/
structure Windowed (st : StreamState) : Prop where
  balanced : Balanced st
  writable : st.writeClosed = false
  sends : Exists fun first : Seq => Exists fun chunks : List Bytes =>
    Sends first chunks st.sendSide

theorem Windowed.step {st after : StreamState} {label : StreamLabel} (windowed : Windowed st)
    (moved : streamMachine.step st label = some after) : Windowed after := by
  rcases windowed with ⟨balanced, writable, first, chunks, sends⟩
  cases label with
  | write buf elapsed =>
    cases moved
    have emits := emits_pollWrite sends elapsed buf
    refine ⟨balanced.pollWrite elapsed buf, ?_, first, _, emits.sends⟩
    simp only [pollWrite]
    split
    · exact writable
    · split <;> exact (sends.cuts writable _ _).writable
  | read room elapsed =>
    cases moved
    have same := sendSide_pollRead elapsed room st
    exact ⟨balanced.pollRead elapsed room, (writeClosed_eq same).1.trans writable, first, _,
      (emits_pollRead sends elapsed room).sends⟩
  | receive packet delay expired =>
    cases moved
    have emits := emits_receive sends packet delay expired
    refine ⟨balanced.receive packet delay expired, ?_, first, _, emits.sends⟩
    have last := (sendSide_receiveType packet _).trans (fastResend_sides packet (receiveAck packet expired
        { st with remoteWnd := packet.wndSize, lastMeasuredDelay := delay })).1
    have acked := last.trans (receiveAck_sides packet expired _).1
    exact (congrArg StreamState.SendSide.writeClosed acked).trans writable

theorem windowed_of_run {labels : List StreamLabel} {st : StreamState}
    (run : streamMachine.RunsTo Machine.always labels st) : Windowed st := by
  refine run.stateInvariant ?_ fun _ _ _ windowed _ moved => windowed.step moved
  rintro st ⟨loopback, ⟨synSeq, same⟩ | ⟨answer, same⟩⟩
  all_goals
    subst same
    have low : maxPayloadSize <= initialCwnd := by decide
    have high : initialCwnd <= maxCwnd := by decide
    exact ⟨⟨rfl, low, high⟩, rfl, _, [], (BitVec.add_zero _).symm, 0, Nat.le_refl _, rfl⟩

theorem Windowed.consecutive {st : StreamState} (windowed : Windowed st) {index : Nat}
    {packet : OutgoingPacket} (kept : st.unacked[index]? = some packet) :
    packet.seqNr + BitVec.ofNat 16 (st.unacked.length - index) = st.seqNr := by
  rcases windowed with ⟨_, writable, first, chunks, sends⟩
  have next := sends.next_of_writable writable
  rcases sends.kept with ⟨acked, fits, queue⟩
  replace queue : st.unacked = (outgoing first chunks).drop acked := queue
  rw [queue, getElem?_drop, outgoing, getElem?_map, getElem?_zipIdx,
    Option.map_map, Option.map_eq_some_iff] at kept
  rcases kept with ⟨payload, found, same⟩
  have inside := (List.getElem?_eq_some_iff.mp found).1
  have far : 0 + (acked + index) + (chunks.length - acked - index) = chunks.length := by omega
  rw [queue, length_drop, length_outgoing, next, <- same]
  show serial first (0 + (acked + index)) + _ = _
  rw [serial, serial, BitVec.add_assoc, <- BitVec.ofNat_add, far]

theorem room_of_writeLoop (rounds : Nat) (left : Bytes) (st : StreamState) (index : Nat)
    (within : index < (writeLoop rounds left st).2.length) :
    st.bytesInFlight + (((writeLoop rounds left st).2.take index).map
      (fun packet => packet.payload.length)).sum < min st.cwnd st.remoteWnd := by
  induction rounds generalizing left st index with
  | zero => exact absurd within (Nat.not_lt_zero _)
  | succ rounds ih =>
    simp only [writeLoop] at within ⊢
    split at within
    · exact absurd within (Nat.not_lt_zero _)
    case isFalse sends =>
      rw [if_neg sends]
      cases index with
      | zero =>
        simp only [chunkLen] at sends
        split at sends
        · exact absurd rfl sends
        simp only [take_zero, map_nil, sum_nil]
        omega
      | succ index =>
        have rest := ih _ _ index (Nat.lt_of_succ_lt_succ within)
        simp only [take_succ_cons, map_cons, sum_cons, <- Nat.add_assoc]
        exact rest

/-- In every run, whatever arrives: the bytes in flight are those of the packets
that are kept, these are numbered one after the other up to the next number, the
congestion window is in its bounds, and a write sends a packet only while what is
in flight by then is less than both windows. -/
theorem sender_window_holds {labels : List StreamLabel} {st : StreamState}
    (run : streamMachine.RunsTo Machine.always labels st) :
    st.bytesInFlight = (st.unacked.map len).sum ∧
      (∀ (index : Nat) packet, st.unacked[index]? = some packet ->
        packet.seqNr + BitVec.ofNat 16 (st.unacked.length - index) = st.seqNr) ∧
      maxPayloadSize <= st.cwnd ∧ st.cwnd <= maxCwnd ∧
      ∀ elapsed buf index, index < (st.pollWrite elapsed buf).2.2.fresh.length ->
        st.bytesInFlight + (((st.pollWrite elapsed buf).2.2.fresh.take index).map
          (fun packet => packet.payload.length)).sum < min st.cwnd st.remoteWnd := by
  have windowed := windowed_of_run run
  refine ⟨windowed.balanced.inFlight, fun _ _ => windowed.consecutive, windowed.balanced.atLeast,
    windowed.balanced.atMost, ?_⟩
  intro elapsed buf index within
  simp only [pollWrite] at within ⊢
  split at within
  · exact absurd within (Nat.not_lt_zero _)
  case isFalse usable =>
    rw [if_neg usable]
    split at within
    · exact absurd within (Nat.not_lt_zero _)
    case isFalse some =>
      rw [if_neg some]
      exact room_of_writeLoop _ _ _ _ within

/-- A write, and a packet with an old acknowledgement and a small window. -/
def smallWindowLabels : List StreamLabel :=
  [.write [1, 2, 3] false, .receive
    { type := .state, timestampDiffMicros := 5, wndSize := 2, seqNr := 0, ackNr := 0 } 0 false]

def smallWindow : StreamState :=
  (streamMachine.exec (.accept false 7) smallWindowLabels).getD (.accept false 7)

theorem sender_window_holds_small : smallWindow.unacked.length = 1 ∧
      smallWindow.bytesInFlight = (smallWindow.unacked.map len).sum :=
  ⟨by decide +kernel, (sender_window_holds (.of_exec ⟨false, Or.inl ⟨7, rfl⟩⟩
    (Machine.permits_always _ smallWindowLabels _) rfl)).1⟩

end TorrentPlayer.Wire
