import TorrentPlayer.Wire.UtpStream

namespace TorrentPlayer.Wire

open Library StreamState Packet List

/-!
# What a uTP stream sends

Every operation of a stream puts packets under way.  A data packet carries the
payload that its number stands for, whether it is sent for the first time or
again, and the packet that closes the stream has the number after the last
payload.  Acknowledgements only make the sender forget packets.
-/

/-- A packet under way, with its number counted without the wrap. -/
structure Flight where
  number : Nat
  packet : Packet

variable (first : Seq) (chunks : List Bytes)

/-- The packets that carry some payloads. -/
def outgoing : List OutgoingPacket :=
  chunks.zipIdx.map (fun numbered =>
    { seqNr := serial first numbered.2, len := numbered.1.length, payload := numbered.1 })

theorem length_outgoing : (outgoing first chunks).length = chunks.length := by
  rw [outgoing, length_map, length_zipIdx]

theorem outgoing_concat (payload : Bytes) : outgoing first (chunks ++ [payload]) = outgoing first chunks ++
        [{ seqNr := serial first chunks.length, len := payload.length, payload := payload }] := by
  rw [outgoing, zipIdx_append, map_append, Nat.zero_add]
  rfl

/-- A packet is the one that carries the payload of its number, or the one that
closes a stream, or an acknowledgement. -/
def Genuine (closed : Bool) (flight : Flight) : Prop :=
  match flight.packet.type with
  | .data =>
    flight.packet.seqNr = serial first flight.number /\ chunks[flight.number]? = some flight.packet.payload
  | .fin =>
    flight.packet.seqNr = serial first flight.number /\ flight.number = chunks.length /\ closed = true
  | .state => True
  | .reset => False

/-- The numbers of a sender follow its payloads, and it keeps the last of them. -/
structure Sends (first : Seq) (chunks : List Bytes) (side : StreamState.SendSide) : Prop where
  next : side.seqNr = serial first (chunks.length + if side.writeClosed then 1 else 0)
  kept : Exists fun acked : Nat =>
    acked <= chunks.length /\ side.unacked = (outgoing first chunks).drop acked

namespace Sends

variable {first : Seq} {chunks : List Bytes}

section
variable {st : StreamState} (sends : Sends first chunks st.sendSide)
include sends

theorem pop {after : StreamState} (same : after.sendSide = { st.sendSide with unacked := after.unacked })
    (popped : Exists fun count : Nat => count <= st.unacked.length /\ after.unacked = st.unacked.drop count) :
    Sends first chunks after.sendSide := by
  rcases sends.kept with ⟨acked, fits, kept⟩
  rcases popped with ⟨count, within, dropped⟩
  have queue : st.unacked = (outgoing first chunks).drop acked := kept
  have length : st.unacked.length = chunks.length - acked := by rw [queue, length_drop, length_outgoing]
  rw [same]
  refine ⟨sends.next, acked + count, by omega, ?_⟩
  rw [dropped, queue, drop_drop]

theorem genuine_front {front : OutgoingPacket}
    {rest : List OutgoingPacket} (kept : st.unacked = front :: rest) (sender : StreamState) :
    Genuine first chunks st.writeClosed ⟨chunks.length - st.unacked.length, sender.dataPacket front⟩ := by
  rcases sends.kept with ⟨acked, fits, queue⟩
  replace queue : st.unacked = (outgoing first chunks).drop acked := queue
  have length : st.unacked.length = chunks.length - acked := by rw [queue, length_drop, length_outgoing]
  have number : chunks.length - st.unacked.length = acked := by omega
  have found : (outgoing first chunks)[acked]? = some front := by
    rw [<- head?_drop, <- queue, kept, head?_cons]
  rw [outgoing, getElem?_map, getElem?_zipIdx] at found
  rw [number]
  cases payload : chunks[acked]? with
  | none =>
    rw [payload] at found
    cases found
  | some =>
    rw [payload] at found
    cases found
    exact ⟨congrArg (serial first) (Nat.zero_add acked), payload⟩

theorem next_of_writable (writable : st.writeClosed = false) : st.seqNr = serial first chunks.length := by
  have numbered : st.seqNr = serial first (chunks.length + if st.writeClosed then 1 else 0) :=
    sends.next
  rwa [writable, if_neg Bool.false_ne_true] at numbered

theorem push (writable : st.writeClosed = false) (payload : Bytes) :
    Sends first (chunks ++ [payload]) (st.pushChunk payload).sendSide := by
  have next := sends.next_of_writable writable
  rcases sends.kept with ⟨acked, fits, queue⟩
  replace queue : st.unacked = (outgoing first chunks).drop acked := queue
  refine ⟨?_, acked, ?_, ?_⟩
  · show st.seqNr + 1 = serial first _
    rw [next, <- serial_succ, length_append]
    show _ = serial first (chunks.length + 1 + if st.writeClosed then 1 else 0)
    rw [writable]
    rfl
  · rw [length_append]
    exact Nat.le_add_right_of_le fits
  · show st.unacked ++ [_] = _
    rw [outgoing_concat, drop_append_of_le_length (by rw [length_outgoing]; exact fits), queue,
      next]

end
end Sends

theorem StreamState.chunkLen_le (st : StreamState) (left : Nat) : st.chunkLen left <= left := by
  rw [chunkLen]
  split
  · exact Nat.zero_le _
  · exact Nat.le_trans (Nat.min_le_left _ _) (Nat.min_le_left _ _)

/-- What the loop of a write does: it cuts packets from the front of the buffer
and numbers them on. -/
structure Cuts (first : Seq) (chunks : List Bytes) (buf : Bytes) (after : StreamState)
    (packets : List Packet) : Prop where
  sends : Sends first (chunks ++ packets.map payload) after.sendSide
  writable : after.writeClosed = false
  numbered : ∀ (index : Nat) (packet : Packet), packets[index]? = some packet ->
    packet.type = .data /\ packet.seqNr = serial first (chunks.length + index)
  bytes : (packets.map payload).flatten = buf.take (packets.map (fun packet => packet.payload.length)).sum

theorem Sends.cuts_nil {first : Seq} {chunks : List Bytes} {st : StreamState}
    (sends : Sends first chunks st.sendSide) (writable : st.writeClosed = false) (buf : Bytes) :
    Cuts first chunks buf st [] := by
  refine ⟨?_, writable, nofun, rfl⟩
  rw [map_nil, append_nil]
  exact sends

theorem Sends.cuts {first : Seq} {chunks : List Bytes} {st : StreamState}
    (sends : Sends first chunks st.sendSide) (writable : st.writeClosed = false) (rounds : Nat)
    (buf : Bytes) : Cuts first chunks buf (writeLoop rounds buf st).1 (writeLoop rounds buf st).2 := by
  induction rounds generalizing buf chunks st with
  | zero => exact sends.cuts_nil writable buf
  | succ rounds ih =>
    rw [writeLoop]
    split
    · exact sends.cuts_nil writable buf
    -- One packet more: the rest of the loop numbers on from the longer list.
    have next := sends.next_of_writable writable
    have pushed := sends.push writable (buf.take (st.chunkLen buf.length))
    have rest := ih pushed writable (buf.drop (st.chunkLen buf.length))
    refine ⟨?_, rest.writable, ?_, ?_⟩
    · have sends := rest.sends
      rw [append_assoc] at sends
      exact sends
    · intro index packet found
      cases index with
      | zero =>
        cases found
        exact ⟨rfl, next⟩
      | succ index =>
        have numbered := rest.numbered index packet found
        rw [length_append, length_singleton, Nat.add_assoc, Nat.add_comm 1] at numbered
        exact numbered
    · have short : (buf.take (st.chunkLen buf.length)).length = st.chunkLen buf.length := by
        rw [length_take]
        exact Nat.min_eq_left (st.chunkLen_le _)
      rw [map_cons, flatten_cons, rest.bytes, map_cons, sum_cons]
      show buf.take _ ++ _ = buf.take ((buf.take _).length + _)
      rw [short, take_add]

/-! ## What the operations send -/

/-- The packets of an operation are genuine, and a closed stream sends no new
data. -/
structure Emits (first : Seq) (chunks : List Bytes) (before after : StreamState)
    (sent : Sent) : Prop where
  sends : Sends first (chunks ++ sent.fresh.map payload) after.sendSide
  resent : ∀ packet : Packet, sent.resent = some packet ->
    Genuine first (chunks ++ sent.fresh.map payload) after.writeClosed
      ⟨(chunks ++ sent.fresh.map payload).length - after.unacked.length, packet⟩
  fresh : ∀ (index : Nat) (packet : Packet), sent.fresh[index]? = some packet ->
    packet.type = .data /\ packet.seqNr = serial first (chunks.length + index)
  control : ∀ packet : Packet, sent.control = some packet ->
    Genuine first (chunks ++ sent.fresh.map payload) after.writeClosed
      ⟨(chunks ++ sent.fresh.map payload).length, packet⟩
  closed : before.writeClosed = true -> after.writeClosed = true /\ sent.fresh = []

section
variable {first : Seq} {chunks : List Bytes} {st : StreamState}

theorem none_sent {holds : Packet -> Prop} : ∀ packet : Packet, none = some packet -> holds packet := by
  nofun

theorem Emits.of_quiet {after : StreamState} {sent : Sent} (none : sent.fresh = [])
    (sends : Sends first chunks after.sendSide)
    (resent : ∀ packet : Packet, sent.resent = some packet ->
      Genuine first chunks after.writeClosed ⟨chunks.length - after.unacked.length, packet⟩)
    (control : ∀ packet : Packet, sent.control = some packet ->
      Genuine first chunks after.writeClosed ⟨chunks.length, packet⟩)
    (closed : st.writeClosed = true -> after.writeClosed = true) :
    Emits first chunks st after sent := by
  have same : chunks ++ sent.fresh.map payload = chunks := by rw [none, map_nil, append_nil]
  refine ⟨?_, ?_, ?_, ?_, fun known => ⟨closed known, none⟩⟩
  · rw [same]
    exact sends
  · rw [same]
    exact resent
  · intro index packet found
    rw [none] at found
    cases found
  · rw [same]
    exact control

theorem writable_of_usable (usable : ¬ (st.writeClosed || st.isReset) = true) : st.writeClosed = false := by
  cases closed : st.writeClosed
  · rfl
  · rw [closed] at usable
    exact absurd rfl usable

theorem genuine_ackPacket (sender : StreamState) (mask : Option Bytes) (closed : Bool)
    (number : Nat) : Genuine first chunks closed ⟨number, sender.ackPacket mask⟩ := by
  cases mask <;> exact trivial

theorem genuine_updateWindow (closed : Bool) (number : Nat) :
    ∀ packet : Packet, st.updateWindow.2 = some packet -> Genuine first chunks closed ⟨number, packet⟩ := by
  rw [updateWindow]
  split
  · intro packet found
    cases found
    exact genuine_ackPacket st _ closed number
  · exact none_sent

theorem writeClosed_eq {left right : StreamState} (same : left.sendSide = right.sendSide) :
    left.writeClosed = right.writeClosed /\ left.unacked = right.unacked :=
  ⟨congrArg StreamState.SendSide.writeClosed same, congrArg StreamState.SendSide.unacked same⟩

theorem genuine_receiveType (packet : Packet) (closed : Bool) (number : Nat) : ∀ sent : Packet,
    (st.receiveType packet).2 = some sent -> Genuine first chunks closed ⟨number, sent⟩ := by
  rw [receiveType]
  intro sent found
  split at found
  · cases found
    exact genuine_ackPacket _ _ closed number
  · cases found
    exact genuine_ackPacket _ none closed number
  · cases found
  · cases found

variable (sends : Sends first chunks st.sendSide)
include sends

theorem Sends.genuine_resend {packet : Packet} (resent : st.resend = some packet) :
    Genuine first chunks st.writeClosed ⟨chunks.length - st.unacked.length, packet⟩ := by
  rw [resend] at resent
  cases kept : st.unacked with
  | nil =>
    rw [kept] at resent
    cases resent
  | cons =>
    rw [kept] at resent
    cases resent
    rw [<- kept]
    exact sends.genuine_front kept st

theorem emits_pollWrite (elapsed : Bool) (buf : Bytes) :
    Emits first chunks st (st.pollWrite elapsed buf).2.1 (st.pollWrite elapsed buf).2.2 := by
  rw [pollWrite]
  split
  · exact .of_quiet rfl sends none_sent none_sent id
  rename_i usable
  have writable := writable_of_usable usable
  have cuts := sends.cuts writable buf.length buf
  have never : st.writeClosed = true -> (writeLoop buf.length buf st).1.writeClosed = true := by
    intro closed
    rw [writable] at closed
    cases closed
  dsimp only
  split
  next empty =>
    have none : (writeLoop buf.length buf st).2 = [] := isEmpty_iff.mp empty
    have same := cuts.sends
    rw [none, map_nil, append_nil] at same
    refine .of_quiet rfl same ?_ none_sent never
    intro packet resent
    split at resent
    · exact same.genuine_resend resent
    · cases resent
  · refine ⟨cuts.sends, none_sent, cuts.numbered, none_sent, ?_⟩
    intro closed
    rw [writable] at closed
    cases closed

theorem payloads_pollWrite (elapsed : Bool) (buf : Bytes) :
    ((st.pollWrite elapsed buf).2.2.fresh.map payload).flatten =
    buf.take (st.pollWrite elapsed buf).1.count := by
  rw [pollWrite]
  split
  · rfl
  rename_i usable
  have cuts := sends.cuts (writable_of_usable usable) buf.length buf
  dsimp only
  split
  · rfl
  · exact cuts.bytes

theorem emits_closeWrite : Emits first chunks st st.closeWrite.1 st.closeWrite.2 := by
  rw [closeWrite]
  split
  case isFalse => exact .of_quiet rfl sends none_sent none_sent id
  next usable =>
    have writable : st.writeClosed = false := by
      cases closed : st.writeClosed
      · rfl
      · rw [closed] at usable
        cases usable
    have next : st.seqNr = serial first chunks.length := sends.next_of_writable writable
    refine .of_quiet rfl ⟨?_, sends.kept⟩ none_sent ?_ fun _ => rfl
    · show st.seqNr + 1 = serial first (chunks.length + 1)
      rw [next, serial_succ]
    · intro packet found
      cases found
      exact ⟨next, rfl, rfl⟩

theorem Sends.genuine_readTimeout (elapsed : Bool) : ∀ packet : Packet, (st.readTimeout elapsed).2 =
    some packet -> Genuine first chunks st.writeClosed ⟨chunks.length - st.unacked.length, packet⟩ := by
  rw [readTimeout]
  split
  · exact none_sent
  rename_i packet due
  intro packet found
  cases found
  split at due
  · exact sends.genuine_resend due
  · cases due

theorem emits_pollRead (elapsed : Bool) (room : Nat) :
    Emits first chunks st (st.pollRead elapsed room).2.1 (st.pollRead elapsed room).2.2 := by
  have same := sendSide_pollRead elapsed room st
  have fields := writeClosed_eq same
  have resent := sends.genuine_readTimeout elapsed
  rw [<- fields.1, <- fields.2] at resent
  have quiet : (st.pollRead elapsed room).2.2.fresh = [] := by
    rw [pollRead]
    split <;> rfl
  have timed : (st.pollRead elapsed room).2.2.resent = (st.readTimeout elapsed).2 := by
    rw [pollRead]
    split <;> rfl
  refine .of_quiet quiet (by rw [same]; exact sends) (by rw [timed]; exact resent) ?_
    (fun closed => fields.1.trans closed)
  generalize (st.pollRead elapsed room).2.1.writeClosed = closed
  rw [pollRead]
  split
  · exact genuine_updateWindow closed chunks.length
  · exact none_sent

theorem Sends.genuine_fastResend (packet : Packet) : ∀ sent : Packet, (st.fastResend packet).2 =
    some sent -> Genuine first chunks st.writeClosed ⟨chunks.length - st.unacked.length, sent⟩ := by
  rw [fastResend]
  split
  · exact none_sent
  rename_i front rest kept
  split
  · intro sent found
    cases found
    exact sends.genuine_front kept st
  · exact none_sent

theorem emits_receive (packet : Packet) (delay : Nat) (expired : Bool) :
    Emits first chunks st (st.receive packet delay expired).1 (st.receive packet delay expired).2 := by
  rw [receive]
  generalize known : { st with remoteWnd := packet.wndSize, lastMeasuredDelay := delay } = heard
  have same : heard.sendSide = st.sendSide := by rw [<- known]; rfl
  rw [<- same] at sends
  have acked : Sends first chunks (heard.receiveAck packet expired).sendSide := by
    have sides := (receiveAck_sides packet expired heard).1
    have popped := congrArg StreamState.SendSide.unacked sides
    refine sends.pop ?_ ?_
    · rw [sides]
      exact congrArg (fun unacked => { heard.sendSide with unacked := unacked }) popped.symm
    · rcases popAcked_eq_drop packet.ackNr heard.unacked heard.bytesInFlight with
        ⟨count, fits, dropped⟩
      exact ⟨count, fits, popped.trans dropped⟩
  have ackedClosed : (heard.receiveAck packet expired).writeClosed = st.writeClosed :=
    (congrArg StreamState.SendSide.writeClosed
      (receiveAck_sides packet expired heard).1).trans (writeClosed_eq same).1
  generalize heard.receiveAck packet expired = answered at acked ackedClosed
  have last : ((answered.fastResend packet).1.receiveType packet).1.sendSide = answered.sendSide :=
    (sendSide_receiveType packet _).trans (fastResend_sides packet _).1
  have fields := writeClosed_eq last
  refine .of_quiet rfl (by rw [last]; exact acked) ?_ (genuine_receiveType packet _ _)
    (fun closed => (fields.1.trans ackedClosed).trans closed)
  rw [fields.1, fields.2]
  exact acked.genuine_fastResend packet

end
end TorrentPlayer.Wire
