import TorrentPlayer.Wire.UtpWindow

namespace TorrentPlayer.Wire

open Library List

/-!
# Opening uTP connections

A socket finds the stream of a packet by the address it comes from and its
connection id.  A packet that opens a connection makes a new stream before
anything is looked up: when it arrives again, a second stream is handed out, and
packets no longer reach the first.
-/

/-- A packet for a socket, with its extensions taken off. -/
inductive Datagram where
  | syn (seqNr : Seq)
  | packet (packet : Packet)

/-- The streams are numbered as they are made.  What a socket sends is left out. -/
structure UtpSocket (Addr : Type) [DecidableEq Addr] where
  states : List StreamState := []
  streams : FiniteMap (Addr × Seq) Nat := ∅
  synSenders : List (Addr × Seq) := []
  /-- The addresses and ids of the packets that opened the streams of `accept`. -/
  handedOut : List (Addr × Seq) := []

inductive SocketLabel (Addr : Type) where
  | connect (remote : Addr) (connectionId : Seq)
  | cancel (remote : Addr) (connectionId : Seq)
  | receive (peer : Addr) (connectionId : Seq) (datagram : Datagram) (delay : Nat) (expired : Bool)
  | act (number : Nat) (label : StreamLabel)
  | drop (number : Nat) (key : Addr × Seq)

namespace UtpSocket

variable {Addr : Type} [DecidableEq Addr]
variable (socket : UtpSocket Addr) (key : Addr × Seq)

/-- The stream that gets the packets of a connection. -/
def found : Option StreamState :=
  (socket.streams.lookup key).bind (fun number => socket.states[number]?)

def addStream (st : StreamState) : UtpSocket Addr :=
  { socket with
    states := socket.states ++ [st]
    streams := socket.streams.insert key socket.states.length }

/-- A packet of no stream: the answer to a connection that is being opened, or the
refusal of one. -/
def receiveUnknown (loopback : Addr -> Bool) (socket : UtpSocket Addr) (key : Addr × Seq)
    (packet : Packet) : UtpSocket Addr :=
  if packet.type = .reset then { socket with synSenders := socket.synSenders.erase key }
  else if packet.type ≠ .state ∨ packet.ackNr ≠ 1 then socket
  else if socket.synSenders.contains key then
    { socket with synSenders := socket.synSenders.erase key }.addStream key
      (.connect (loopback key.1) packet)
  else socket

def receive (loopback : Addr -> Bool) (socket : UtpSocket Addr) (peer : Addr) (connectionId : Seq)
    (datagram : Datagram) (delay : Nat) (expired : Bool) : UtpSocket Addr :=
  match datagram with
  | .syn seqNr =>
    { socket with handedOut := socket.handedOut ++ [(peer, connectionId)] }.addStream
      (peer, connectionId + 1) (.accept (loopback peer) seqNr)
  | .packet packet =>
    match socket.streams.lookup (peer, connectionId) with
    | some number =>
      { socket with
        states := socket.states.modify number (fun st => (st.receive packet delay expired).1) }
    | none => socket.receiveUnknown loopback (peer, connectionId) packet

/-- A stream that is dropped is taken out of the map, unless another took its place. -/
def dropStream (number : Nat) (key : Addr × Seq) : UtpSocket Addr :=
  { socket with
    states := socket.states.modify number (fun st => st.closeWrite.1)
    streams :=
      if socket.streams.lookup key = some number then socket.streams.erase key
      else socket.streams }

def machine (loopback : Addr -> Bool) : Machine (UtpSocket Addr) (SocketLabel Addr) where
  init socket := socket = {}
  step socket
    | .connect remote connectionId =>
      some { socket with synSenders := (remote, connectionId) :: socket.synSenders }
    | .cancel remote connectionId =>
      some { socket with
        synSenders := socket.synSenders.erase (remote, connectionId)
        streams := socket.streams.erase (remote, connectionId) }
    | .receive peer connectionId datagram delay expired =>
      some (socket.receive loopback peer connectionId datagram delay expired)
    | .act number label =>
      some { socket with
        states := socket.states.modify number (fun st => (streamMachine.step st label).getD st) }
    | .drop number key => some (socket.dropStream number key)

/-- A packet that opens a connection arrives once, and its id is not that of a
stream that is there. -/
def OpensOnce : SocketLabel Addr -> Prop
  | .receive peer connectionId (.syn _) _ _ =>
    (peer, connectionId) ∉ socket.handedOut /\ socket.streams.lookup (peer, connectionId + 1) = none
  | .receive _ _ (.packet _) _ _ | .connect _ _ | .cancel _ _ | .act _ _ | .drop _ _ => True

variable {loopback : Addr -> Bool} {socket after : UtpSocket Addr} {label : SocketLabel Addr}

theorem handedOut_receiveUnknown (key : Addr × Seq) (packet : Packet) :
    (socket.receiveUnknown loopback key packet).handedOut = socket.handedOut := by
  unfold receiveUnknown
  split_ifs <;> rfl

theorem nodup_step (once : socket.handedOut.Nodup) (orderly : OpensOnce socket label)
    (moved : (machine loopback).step socket label = some after) : after.handedOut.Nodup := by
  cases label with
  | connect | cancel | act | drop =>
    cases moved
    exact once
  | receive peer connectionId datagram =>
    cases moved
    cases datagram with
    | syn => exact List.Nodup.append once (nodup_singleton _) (disjoint_singleton.mpr orderly.1)
    | packet =>
      unfold receive
      dsimp only
      split
      · exact once
      rw [handedOut_receiveUnknown]
      exact once

theorem found_addStream {key other : Addr × Seq} {st : StreamState} (new : StreamState)
    (there : socket.found other = some st) (free : socket.streams.lookup key = none) :
    (socket.addStream key new).found other = some st := by
  rcases Option.bind_eq_some_iff.mp there with ⟨number, listed, held⟩
  have differs : key ≠ other := by
    intro same
    rw [same, listed] at free
    cases free
  refine Option.bind_eq_some_iff.mpr ⟨number, ?_, ?_⟩
  · exact (FiniteMap.lookup_insert_eq _ _ _ _).trans ((if_neg differs).trans listed)
  · exact (getElem?_append_left (List.getElem?_eq_some_iff.mp held).1).trans held

/-- In every run in which a packet that opens a connection arrives once, with an id
that no stream of its address has: at most one stream is handed out for it, and the
next one leaves every stream that is found as it was. -/
theorem one_stream_for_attempt {labels : List (SocketLabel Addr)}
    (run : (machine loopback).RunsTo OpensOnce labels socket) :
    (∀ attempt, socket.handedOut.count attempt <= 1) ∧ ∀ peer connectionId seqNr delay expired,
        OpensOnce socket (.receive peer connectionId (.syn seqNr) delay expired) ->
        ∀ key st, socket.found key = some st ->
          (socket.receive loopback peer connectionId (.syn seqNr) delay expired).found key =
            some st := by
  have once : socket.handedOut.Nodup := by
    refine run.stateInvariant ?_ (fun _ _ _ once orderly moved => nodup_step once orderly moved)
    rintro socket rfl
    exact nodup_nil
  refine ⟨nodup_iff_count_le_one.mp once, ?_⟩
  intro peer connectionId seqNr delay expired orderly key st there
  exact found_addStream (.accept (loopback peer) seqNr) there orderly.2

/-- A connection is opened, and gets a packet of data. -/
def openedLabels : List (SocketLabel Bool) :=
  [.receive true 7 (.syn 1) 0 false, .receive true 8 (.packet
    { type := .data, timestampDiffMicros := 0, wndSize := 9, seqNr := 2, ackNr := 0, payload := [5] })
    0 false]

def openedSocket : UtpSocket Bool :=
  ((machine id).exec {} openedLabels).getD {}

theorem one_stream_for_attempt_opened : openedSocket.handedOut.count (true, 7) <= 1 := by
  have permits : (machine id).Permits OpensOnce ({} : UtpSocket Bool) openedLabels :=
    ⟨⟨not_mem_nil, rfl⟩, trivial, trivial⟩
  have reached : (machine id).exec {} openedLabels = some openedSocket := rfl
  exact (one_stream_for_attempt (.of_exec rfl permits reached)).1 _

/-- The opening packet arrives again: a second stream is handed out, and the stream
that is found has lost its byte. -/
theorem repeated_syn_replaces_stream : let again := openedSocket.receive id true 7 (.syn 1) 0 false
    again.handedOut.count (true, 7) = 2 ∧
      (openedSocket.found (true, 8)).map StreamState.recvBuf = some [5] ∧
      (again.found (true, 8)).map StreamState.recvBuf = some [] := by
  decide +kernel

end UtpSocket
end TorrentPlayer.Wire
