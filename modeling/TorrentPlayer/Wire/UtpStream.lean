import TorrentPlayer.Library.FiniteMaps
import TorrentPlayer.Library.SerialNumbers
import TorrentPlayer.Wire.Message

namespace TorrentPlayer.Wire

open Library

/-!
# One end of a uTP connection

A stream cuts what is written into packets and keeps a packet until it is
acknowledged.  Packets that arrive early wait in a map until the ones before
them have arrived.  Numbers are sixteen bits wide and wrap.

Clocks are inputs of the operations: whether a timeout has passed, and the
delay that a packet was measured to have.  The estimate of the round trip only
decides when a timeout passes, so it is not a part of the state.
-/

abbrev Seq : Type :=
  BitVec 16

def maxPayloadSize : Nat :=
  1432 - 20

def ledbatTargetMicros : Nat :=
  100000

def initialCwnd : Nat :=
  512 * 1024

def maxCwnd : Nat :=
  8 * 1024 * 1024

def defaultRecvWnd : Nat :=
  8 * 1024 * 1024

def dupAcksBeforeResend : Nat :=
  3

def windowUpdateBytes : Nat :=
  64 * 1024

inductive PacketType where
  | data
  | fin
  | state
  | reset
  deriving DecidableEq

/-- A packet of an established connection, with its extensions taken off. -/
structure Packet where
  type : PacketType
  timestampDiffMicros : Nat
  wndSize : Nat
  seqNr : Seq
  ackNr : Seq
  sack : Option Bytes := none
  payload : Bytes := []

structure OutgoingPacket where
  seqNr : Seq
  len : Nat
  payload : Bytes

structure StreamState where
  /-- The remote address is a loopback address. -/
  loopback : Bool
  seqNr : Seq := 1
  ackNr : Seq := 0
  lastRemoteAck : Seq := 0
  remoteWnd : Nat := defaultRecvWnd
  cwnd : Nat := initialCwnd
  unacked : List OutgoingPacket := []
  bytesInFlight : Nat := 0
  writeClosed : Bool := false
  dupAckCount : Nat := 0
  fastResendSeq : Option Seq := none
  expectedSeqNr : Seq := 0
  recvBuf : Bytes := []
  outOfOrder : FiniteMap Seq Bytes := ∅
  readClosed : Bool := false
  lastAdvertisedWindow : Nat := defaultRecvWnd
  baseDelayMicros : Nat := 2 ^ 32 - 1
  recentMinDelay : Nat := 2 ^ 32 - 1
  lastMeasuredDelay : Nat := 0
  unackedRecvCount : Nat := 0
  isReset : Bool := false

/-- What an operation hands to the socket, in this order. -/
structure Sent where
  resent : Option Packet := none
  fresh : List Packet := []
  control : Option Packet := none

namespace StreamState

/-- The acceptor's stream, from the number of the packet that opens the connection. -/
def accept (loopback : Bool) (synSeq : Seq) : StreamState :=
  { loopback := loopback, ackNr := synSeq, expectedSeqNr := synSeq + 1 }

def connect (loopback : Bool) (answer : Packet) : StreamState :=
  { loopback := loopback
    seqNr := 2
    ackNr := answer.seqNr - 1
    expectedSeqNr := answer.seqNr
    lastRemoteAck := answer.ackNr }

variable (st : StreamState)

def recvWindow : Nat :=
  defaultRecvWnd - st.recvBuf.length % 2 ^ 32

def header (type : PacketType) (seqNr : Seq) : Packet where
  type := type
  timestampDiffMicros := st.lastMeasuredDelay
  wndSize := st.recvWindow
  seqNr := seqNr
  ackNr := st.ackNr

def dataPacket (packet : OutgoingPacket) : Packet :=
  { st.header .data packet.seqNr with payload := packet.payload }

/-- How far the packets that wait are past the acknowledged ones. -/
def waitingOffsets : List Nat :=
  (st.outOfOrder.keys.map (fun seq => (seq - st.ackNr).toNat)).filter (2 <= ·)

/-- One bit for every packet from the second past the acknowledged ones on. -/
def selectiveAckBitmask : Option Bytes :=
  match st.waitingOffsets.max? with
  | none => none
  | some furthest =>
    some ((List.range ((furthest - 1 + 31) / 32 * 4)).map (fun index =>
      st.waitingOffsets.foldl (fun byte offset =>
          if (offset - 2) / 8 = index then byte ||| UInt8.ofNat (2 ^ ((offset - 2) % 8)) else byte)
        0))

/-- An acknowledgement.  The length of a mask is one byte on the wire; what is
longer reads as the mask's beginning and a payload. -/
def ackPacket : Option Bytes -> Packet
  | none => st.header .state st.seqNr
  | some mask =>
    { st.header .state st.seqNr with
      sack := some (mask.take (mask.length % 256))
      payload := mask.drop (mask.length % 256) }

def advertise : StreamState :=
  { st with lastAdvertisedWindow := st.recvWindow }

inductive WriteResult where
  | closed
  | pending
  | accepted (count : Nat)

/-- How many bytes of the buffer the writer was told were taken. -/
def WriteResult.count : WriteResult -> Nat
  | .closed | .pending => 0
  | .accepted count => count

def maxPayload : Nat :=
  if st.loopback then 8192 else maxPayloadSize

/-- The length of the next packet, or zero when the window is full or nothing is
left to send. -/
def chunkLen (left : Nat) : Nat :=
  let maxFlight := min st.cwnd st.remoteWnd
  if maxFlight <= st.bytesInFlight && 0 < maxFlight then 0
  else min (min left (maxFlight - st.bytesInFlight)) st.maxPayload

/-- Number a packet and keep it until it is acknowledged. -/
def pushChunk (payload : Bytes) : StreamState :=
  { st.advertise with
    seqNr := st.seqNr + 1
    bytesInFlight := st.bytesInFlight + payload.length
    unacked := st.unacked ++ [{ seqNr := st.seqNr, len := payload.length, payload := payload }] }

def freshPacket (payload : Bytes) : Packet :=
  { st.header .data st.seqNr with payload := payload }

/-- The loop of `poll_write`.  A packet takes at least one byte, so as many
rounds as there are bytes are enough. -/
def writeLoop : Nat -> Bytes -> StreamState -> StreamState × List Packet
  | 0, _, st => (st, [])
  | rounds + 1, left, st =>
    let count := st.chunkLen left.length
    if count = 0 then (st, [])
    else
      let more := writeLoop rounds (left.drop count) (st.pushChunk (left.take count))
      (more.1, st.freshPacket (left.take count) :: more.2)

/-- The oldest packet again. -/
def resend : Option Packet :=
  st.unacked.head?.map st.dataPacket

def pollWrite (elapsed : Bool) (buf : Bytes) (st : StreamState) : WriteResult × StreamState × Sent :=
  if st.writeClosed || st.isReset then (.closed, st, {})
  else
    let written := writeLoop buf.length buf st
    if written.2.isEmpty then
      (.pending, written.1, { resent := if elapsed then written.1.resend else none })
    else
      (.accepted (written.2.map (fun packet => packet.payload.length)).sum, written.1,
        { fresh := written.2 })

def closeWrite : StreamState × Sent :=
  if !st.writeClosed && !st.isReset then
    ({ st.advertise with writeClosed := true, seqNr := st.seqNr + 1 },
      { control := some (st.header .fin st.seqNr) })
  else (st, {})

inductive ReadResult where
  | pending
  | ended
  | bytes (bytes : Bytes)

def takeBytes (room : Nat) : StreamState :=
  { st with recvBuf := st.recvBuf.drop (min room st.recvBuf.length) }

/-- Tell the sender about acknowledgements that are due and about new room. -/
def updateWindow : StreamState × Option Packet :=
  if 0 < st.unackedRecvCount || windowUpdateBytes <= st.recvWindow - st.lastAdvertisedWindow ||
      st.lastAdvertisedWindow = 0 && 0 < st.recvWindow then
    ({ st.advertise with unackedRecvCount := 0 }, some (st.ackPacket st.selectiveAckBitmask))
  else (st, none)

/-- A resend that was due, while the reader waits. -/
def readTimeout (elapsed : Bool) (st : StreamState) : StreamState × Option Packet :=
  match if elapsed then st.resend else none with
  | none => (st, none)
  | some packet => (st.advertise, some packet)

def pollRead (elapsed : Bool) (room : Nat) (st : StreamState) : ReadResult × StreamState × Sent :=
  let timed := st.readTimeout elapsed
  if !timed.1.recvBuf.isEmpty then
    let updated := (timed.1.takeBytes room).updateWindow
    (.bytes (timed.1.recvBuf.take (min room timed.1.recvBuf.length)), updated.1,
      { resent := timed.2, control := updated.2 })
  else
    (if timed.1.readClosed || timed.1.isReset then .ended else .pending, timed.1,
      { resent := timed.2 })

/-- Grow the window by how far the delay is below its target.  `expired` says
that the base delay is too old. -/
def onSendDelay (delay : Nat) (expired : Bool) (st : StreamState) : StreamState :=
  if delay = 0 then st
  else
    let base := if expired then st.recentMinDelay else st.baseDelayMicros
    let recent := if expired then 2 ^ 32 - 1 else st.recentMinDelay
    let queue := delay - min base delay
    let grow := maxPayloadSize * (ledbatTargetMicros - queue) / ledbatTargetMicros
    { st with
      baseDelayMicros := min base delay
      recentMinDelay := min recent delay
      cwnd := if queue < ledbatTargetMicros then min (st.cwnd + grow) maxCwnd else st.cwnd }

def popAcked (ackNr : Seq) : List OutgoingPacket -> Nat -> List OutgoingPacket × Nat
  | [], inFlight => ([], inFlight)
  | front :: rest, inFlight =>
    if 0 <= (ackNr - front.seqNr).toInt then popAcked ackNr rest (inFlight - front.len)
    else (front :: rest, inFlight)

variable (packet : Packet)

def receiveAck (expired : Bool) (st : StreamState) : StreamState :=
  let popped := popAcked packet.ackNr st.unacked st.bytesInFlight
  let remaining := { st with unacked := popped.1, bytesInFlight := popped.2 }
  if popped.1.length < st.unacked.length then
    { remaining.onSendDelay packet.timestampDiffMicros expired with
      lastRemoteAck := packet.ackNr, dupAckCount := 0 }
  else if packet.ackNr = st.lastRemoteAck && !popped.1.isEmpty then
    { remaining with dupAckCount := min (st.dupAckCount + 1) (2 ^ 16 - 1) }
  else remaining

def countOnes (byte : UInt8) : Nat :=
  (List.range 8).countP byte.toNat.testBit

def sackedAfter : Nat :=
  min (((packet.sack.getD []).map countOnes).sum) (2 ^ 16 - 1)

/-- Send the oldest packet again after enough signs of its loss, once. -/
def fastResend (st : StreamState) : StreamState × Option Packet :=
  match st.unacked with
  | [] => (st, none)
  | front :: _ =>
    if (dupAcksBeforeResend <= st.dupAckCount || dupAcksBeforeResend <= sackedAfter packet) &&
        st.fastResendSeq != some front.seqNr then
      ({ st with
          fastResendSeq := some front.seqNr
          cwnd := max (st.cwnd / 2) maxPayloadSize },
        some (st.dataPacket front))
    else (st, none)

/-- Append the packet that is due. -/
def append (st : StreamState) (payload : Bytes) : StreamState :=
  { st with recvBuf := st.recvBuf ++ payload, expectedSeqNr := st.expectedSeqNr + 1 }

/-- Append the waiting packets that have become due.  Each round takes one off
the map, so as many rounds as it has entries are enough. -/
def drain : Nat -> StreamState -> StreamState
  | 0, st => st
  | rounds + 1, st =>
    match st.outOfOrder.lookup st.expectedSeqNr with
    | none => st
    | some payload =>
      drain rounds ({ st with outOfOrder := st.outOfOrder.erase st.expectedSeqNr }.append payload)

def sortIn (st : StreamState) : StreamState :=
  if packet.seqNr = st.expectedSeqNr then
    drain st.outOfOrder.entries.length (st.append packet.payload)
  else if 0 < (packet.seqNr - st.expectedSeqNr).toInt then
    { st with outOfOrder := st.outOfOrder.insert packet.seqNr packet.payload }
  else st

def receiveData (st : StreamState) : StreamState × Option Packet :=
  let sorted := st.sortIn packet
  -- The count of packets to acknowledge was increased, so it is never zero here.
  let acked := { sorted with ackNr := sorted.expectedSeqNr - 1 }
  ({ acked.advertise with unackedRecvCount := 0 }, some (acked.ackPacket acked.selectiveAckBitmask))

def receiveFin (st : StreamState) : StreamState × Option Packet :=
  let closed := { st with readClosed := true, ackNr := packet.seqNr, unackedRecvCount := 0 }
  (closed.advertise, some (closed.ackPacket none))

def receiveType (st : StreamState) : StreamState × Option Packet :=
  match packet.type with
  | .data => st.receiveData packet
  | .fin => st.receiveFin packet
  | .reset => ({ st with isReset := true }, none)
  | .state => (st, none)

def receive (delay : Nat) (expired : Bool) (st : StreamState) : StreamState × Sent :=
  let heard := { st with remoteWnd := packet.wndSize, lastMeasuredDelay := delay }
  let resent := (heard.receiveAck packet expired).fastResend packet
  let received := resent.1.receiveType packet
  (received.1, { resent := resent.2, control := received.2 })

/-! ## What an operation leaves alone -/

/-- The fields that the packets to send depend on. -/
structure SendSide where
  seqNr : Seq
  writeClosed : Bool
  unacked : List OutgoingPacket

def sendSide (st : StreamState) : SendSide where
  seqNr := st.seqNr
  writeClosed := st.writeClosed
  unacked := st.unacked

/-- The fields that the bytes for the reader depend on. -/
structure ReadSide where
  expectedSeqNr : Seq
  recvBuf : Bytes
  outOfOrder : FiniteMap Seq Bytes
  readClosed : Bool
  isReset : Bool

def readSide (st : StreamState) : ReadSide where
  expectedSeqNr := st.expectedSeqNr
  recvBuf := st.recvBuf
  outOfOrder := st.outOfOrder
  readClosed := st.readClosed
  isReset := st.isReset

variable (rounds : Nat) (packet : Packet) (expired elapsed : Bool) (st : StreamState)

theorem readSide_writeLoop (left : Bytes) (st : StreamState) :
    (writeLoop rounds left st).1.readSide = st.readSide := by
  induction rounds generalizing left st with
  | zero => rfl
  | succ rounds ih =>
    rw [writeLoop]
    split
    · rfl
    · exact ih _ _

theorem readSide_pollWrite (buf : Bytes) (st : StreamState) :
    (st.pollWrite elapsed buf).2.1.readSide = st.readSide := by
  rw [pollWrite]
  split
  · rfl
  dsimp only
  split <;> exact readSide_writeLoop _ _ _

theorem readSide_closeWrite : st.closeWrite.1.readSide = st.readSide := by
  rw [closeWrite]
  split <;> rfl

theorem sendSide_readTimeout : (st.readTimeout elapsed).1.sendSide = st.sendSide := by
  rw [readTimeout]
  split <;> rfl

theorem readSide_readTimeout : (st.readTimeout elapsed).1.readSide = st.readSide := by
  rw [readTimeout]
  split <;> rfl

theorem sendSide_updateWindow : st.updateWindow.1.sendSide = st.sendSide := by
  rw [updateWindow]
  split <;> rfl

theorem readSide_updateWindow : st.updateWindow.1.readSide = st.readSide := by
  rw [updateWindow]
  split <;> rfl

theorem sendSide_pollRead (room : Nat) (st : StreamState) :
    (st.pollRead elapsed room).2.1.sendSide = st.sendSide := by
  rw [pollRead]
  split
  · exact (sendSide_updateWindow _).trans (sendSide_readTimeout elapsed st)
  · exact sendSide_readTimeout elapsed st

theorem onSendDelay_sides (delay : Nat) (expired : Bool) (st : StreamState) :
    (st.onSendDelay delay expired).sendSide = st.sendSide /\
    (st.onSendDelay delay expired).readSide = st.readSide := by
  rw [onSendDelay]
  split <;> exact ⟨rfl, rfl⟩

theorem popAcked_eq_drop (ackNr : Seq) (packets : List OutgoingPacket) (inFlight : Nat) :
    Exists fun count : Nat =>
    count <= packets.length /\ (popAcked ackNr packets inFlight).1 = packets.drop count := by
  induction packets generalizing inFlight with
  | nil => exact ⟨0, Nat.le_refl _, rfl⟩
  | cons front rest ih =>
    rw [popAcked]
    split
    · rcases ih (inFlight - front.len) with ⟨count, fits, popped⟩
      exact ⟨count + 1, Nat.succ_le_succ fits, popped⟩
    · exact ⟨0, Nat.zero_le _, rfl⟩

theorem receiveAck_sides : (st.receiveAck packet expired).sendSide =
        { st.sendSide with unacked := (popAcked packet.ackNr st.unacked st.bytesInFlight).1 } /\
      (st.receiveAck packet expired).readSide = st.readSide := by
  rw [receiveAck]
  split
  · exact onSendDelay_sides _ _ _
  · split <;> exact ⟨rfl, rfl⟩

theorem fastResend_sides : (st.fastResend packet).1.sendSide = st.sendSide /\
    (st.fastResend packet).1.readSide = st.readSide := by
  rw [fastResend]
  split
  · exact ⟨rfl, rfl⟩
  · split <;> exact ⟨rfl, rfl⟩

theorem sendSide_drain : (drain rounds st).sendSide = st.sendSide := by
  induction rounds generalizing st with
  | zero => rfl
  | succ rounds ih =>
    rw [drain]
    split
    · rfl
    · exact ih _

theorem sendSide_sortIn : (st.sortIn packet).sendSide = st.sendSide := by
  rw [sortIn]
  split
  · exact sendSide_drain _ _
  · split <;> rfl

theorem sendSide_receiveType : (st.receiveType packet).1.sendSide = st.sendSide := by
  rw [receiveType]
  split
  · exact sendSide_sortIn packet st
  all_goals rfl

end StreamState
end TorrentPlayer.Wire
