import TorrentPlayer.Discovery.Client
import TorrentPlayer.Wire.Handshake

namespace TorrentPlayer.Discovery

open Library Wire
open Core.Pex (SocketAddr)

/-!
# Attaching connections to torrents

`attach_accepted`, `attach_webrtc_peer`, `dial_peer_transport` and
`attach_driver` of `wt-core/src/client.rs`, with `complete_bt_handshake` of the
dialer, `handle_inbound_inner` of the listener, and `attach_connection` of
`wt-core/src/torrent.rs`.

A connection comes about in three ways.  A dialled peer has to answer with the
hash of the torrent.  A peer that dials us may name any hash the client knows,
and the torrent is looked up by it.  A WebRTC channel is opened for a torrent
already, by either side, and then the handshake is made over it.

An attempt is at one of the stages below.  Between two stages, any other attempt
may move.  What the network does (a timeout, a broken stream, a limit on
half-open connections, the encryption of the stream) is the label `fail`.
-/

structure AttachInfo where
  remote : SocketAddr
  outgoing : Bool
  peerId : PeerId

structure ConnHandle where
  outgoing : Bool
  peerId : Option PeerId
  closed : Bool := false

structure WebRtcOpenedPeer where
  infoHash : InfoHash
  peerId : PeerId
  offerId : String
  localOffered : Bool

/-- A data channel has no address, so one is made up from its names. -/
def webrtcSyntheticAddr (offerId : String) (peerId : PeerId) : SocketAddr :=
  let h := (offerId.toUTF8.data.toList ++ peerId.toList).foldl
    (fun (h : UInt32) byte => (h ^^^ byte.toUInt32) * 0x01000193) 0x811c9dc5
  .v4 { ip := 0x7f000002, port := ((h % 55000) + 10000).toUInt16 }

/-- Where an attempt is.  `received` is what the remote end sent as its handshake. -/
inductive Attempt where
  | dialing (place : Nat) (addr : SocketAddr) (allowFallback : Bool)
  | accepting (addr : SocketAddr)
  | accepted (addr : SocketAddr) (result : HandshakeResult) (received : HandshakeBytes)
  | webrtc (place : Nat) (remote : SocketAddr) (outgoing : Bool)
  | driving (place : Nat) (info : AttachInfo) (received : HandshakeBytes)
  | entering (place : Nat) (info : AttachInfo) (received : HandshakeBytes)
  | admitted (place : Nat) (info : AttachInfo) (received : HandshakeBytes) (limit : Nat)
  | finished (result : Except CoreError Unit)

/-- A connection that was attached, and where the hash of its handshake led in
the client at that moment. -/
structure Attachment where
  place : Nat
  received : HandshakeBytes
  ledTo : Option Nat

/-- `attached` is not part of the code.  `closedTorrents` has the torrents whose
`closed` flag is set. -/
structure Attaching where
  client : Client
  peerId : PeerId := Vector.replicate 20 0
  extensions : PeerExtensionBits := Vector.replicate 8 0
  closedTorrents : Finset Nat := ∅
  attempts : FiniteMap Nat Attempt := ∅
  connHandles : FiniteMap (Nat × SocketAddr) ConnHandle := ∅
  attached : List Attachment := []

namespace Attaching

variable (state : Attaching) (id place : Nat) (addr : SocketAddr) (info : AttachInfo)
  (received : HandshakeBytes)

def setAttempt (attempt : Attempt) : Attaching :=
  { state with attempts := state.attempts.insert id attempt }

def finish (result : Except CoreError Unit) : Attaching :=
  state.setAttempt id (.finished result)

def isClosed : Bool :=
  state.client.closed || decide (place ∈ state.closedTorrents)

def dialPeer (allowFallback : Bool) : Attaching :=
  if state.isClosed place then state.finish id (.error .closed)
  else if (state.connHandles.lookup (place, addr)).isSome then state.finish id (.ok ())
  else state.setAttempt id (.dialing place addr allowFallback)

def openWebrtc (torrent : ClientTorrent) (peer : WebRtcOpenedPeer) : Attaching :=
  if state.isClosed place then state.finish id (.error .closed)
  else if peer.infoHash != torrent.infoHash &&
      state.client.torrentsByShort.lookup peer.infoHash != some place then
    state.finish id (.error (.other "webrtc infohash mismatch"))
  else
    let remote := webrtcSyntheticAddr peer.offerId peer.peerId
    if (state.connHandles.lookup (place, remote)).isSome then state.finish id (.ok ())
    else state.setAttempt id (.webrtc place remote peer.localOffered)

/-- A failed dial is tried once more with the other obfuscation. -/
def dialFailed (allowFallback : Bool) (error : CoreError) : Attaching :=
  if allowFallback then state.setAttempt id (.dialing place addr false)
  else state.finish id (.error error)

def dialHandshake (torrent : ClientTorrent)
    (addr : SocketAddr) (allowFallback : Bool) (received : HandshakeBytes) : Attaching :=
  match (handshake torrent.infoHash state.peerId state.extensions received).2 with
  | .error message =>
    state.dialFailed id place addr allowFallback (.other ("BitTorrent handshake failed: " ++ message))
  | .ok peer =>
    if peer.infoHash != torrent.infoHash then
      state.dialFailed id place addr allowFallback (.other "peer returned mismatched InfoHash")
    else
      state.setAttempt id (.driving place
        { remote := addr, outgoing := true, peerId := peer.peerId } received)

def known (infoHash : InfoHash) : Bool :=
  (state.client.torrentsByShort.lookup infoHash).isSome

def acceptHandshake : Attaching :=
  match handshakeIncoming state.peerId state.extensions state.known received with
  | .error message =>
    state.finish id (.error (.other ("incoming BitTorrent handshake error: " ++ message)))
  | .ok (peer, _) => state.setAttempt id (.accepted addr peer received)

def webrtcHandshake (torrent : ClientTorrent)
    (remote : SocketAddr) (outgoing : Bool) (received : HandshakeBytes) : Attaching :=
  let peer : Except CoreError HandshakeResult :=
    if outgoing then
      match (handshake torrent.infoHash state.peerId state.extensions received).2 with
      | .error message => .error (.other ("webrtc handshake: " ++ message))
      | .ok peer => .ok peer
    else
      match handshakeIncoming state.peerId state.extensions
          (fun infoHash => infoHash == torrent.infoHash || state.known infoHash) received with
      | .error message => .error (.other ("webrtc incoming handshake: " ++ message))
      | .ok (peer, _) => .ok peer
  match peer with
  | .error error => state.finish id (.error error)
  | .ok peer =>
    state.setAttempt id (.driving place
      { remote := remote, outgoing := outgoing, peerId := peer.peerId } received)

/-- The start of `attach_accepted`. -/
def findTorrent (peer : HandshakeResult) (received : HandshakeBytes) : Attaching :=
  if state.client.closed then state.finish id (.error .closed)
  else
    match state.client.torrentsByShort.lookup peer.infoHash with
    | none => state.finish id (.error (.other "unknown infohash after accept"))
    | some place =>
      state.setAttempt id (.driving place
        { remote := addr, outgoing := false, peerId := peer.peerId } received)

/-- The start of `attach_driver`. -/
def attachDriver : Attaching :=
  if state.isClosed place then state.finish id (.error .closed)
  else state.setAttempt id (.entering place info received)

def handlesOf : List (SocketAddr × ConnHandle) :=
  (state.connHandles.entries.filter (fun entry => entry.1.1 == place)).map
    (fun entry => (entry.1.2, entry.2))

/-- One slot per peer, by address or by peer id. -/
def duplicate : Bool :=
  (state.connHandles.lookup (place, info.remote)).isSome ||
    (info.peerId.toList.any (· != 0) && (state.handlesOf place).any (fun entry =>
      !entry.2.closed && entry.2.peerId == some info.peerId))

/-- A refused dial succeeds all the same if its address is connected by now. -/
def refuse (error : CoreError) : Attaching :=
  if info.outgoing && (state.connHandles.lookup (place, info.remote)).isSome then
    state.finish id (.ok ())
  else state.finish id (.error error)

/-- `attach_connection` up to the write lock.  A full torrent gives up the
connection that `worst_bad_conn_addr` names. -/
def enterTorrent (limit : Nat) (victim : Option SocketAddr) : Attaching :=
  if place ∈ state.closedTorrents then state.refuse id place info .closed
  else if state.duplicate place info then
    state.refuse id place info (.other "duplicate peer")
  else if limit <= (state.handlesOf place).length then
    match victim with
    | none => state.refuse id place info (.other "don't want conn")
    | some addr =>
      { state with connHandles := state.connHandles.erase (place, addr) }.setAttempt id
        (.admitted place info received limit)
  else state.setAttempt id (.admitted place info received limit)

/-- `attach_connection` under the write lock. -/
def register (limit : Nat) : Attaching :=
  if state.duplicate place info then state.refuse id place info (.other "duplicate peer")
  else if limit <= (state.handlesOf place).length then
    state.refuse id place info (.other "don't want conn")
  else
    let attachment : Attachment :=
      { place := place, received := received
        ledTo := state.client.torrentsByShort.lookup received.infoHash }
    { state with
      connHandles := state.connHandles.insert (place, info.remote)
        { outgoing := info.outgoing, peerId := some info.peerId }
      attached := state.attached ++ [attachment] }.finish id (.ok ())

/-! ## Dropping a torrent -/

/-- The handles of a dropped torrent are closed and stay in the registry. -/
def closeHandles : Attaching :=
  { state with
    connHandles := state.connHandles.retain (fun key handle =>
      if key.1 = place then some { handle with closed := true } else some handle) }

inductive Label where
  | add (spec : TorrentSpec) (storageError : Option String)
  | close
  /-- The three parts of `drop_torrent`. -/
  | dropTorrent (place : Nat)
  | detach (place : Nat)
  | closeHandles (place : Nat)
  | dial (id place : Nat) (addr : SocketAddr) (allowFallback : Bool)
  | accept (id : Nat) (addr : SocketAddr)
  | webrtc (id place : Nat) (peer : WebRtcOpenedPeer)
  | receive (id : Nat) (received : HandshakeBytes)
  | fail (id : Nat) (error : CoreError)
  | findTorrent (id : Nat)
  | drive (id : Nat)
  | enter (id limit : Nat) (victim : Option SocketAddr)
  | register (id : Nat)
  /-- A connection ends. -/
  | disconnect (place : Nat) (addr : SocketAddr)

def fresh : Bool :=
  (state.attempts.lookup id).isNone

/-- The remote end sends its handshake. -/
def receive : Option Attaching :=
  match state.attempts.lookup id with
  | some (.dialing place addr allowFallback) =>
    state.client.all[place]?.map (fun torrent =>
      state.dialHandshake id place torrent addr allowFallback received)
  | some (.accepting addr) => some (state.acceptHandshake id addr received)
  | some (.webrtc place remote outgoing) =>
    state.client.all[place]?.map (fun torrent =>
      state.webrtcHandshake id place torrent remote outgoing received)
  | _ => none

def fail (error : CoreError) : Option Attaching :=
  match state.attempts.lookup id with
  | some (.dialing place addr allowFallback) =>
    some (state.dialFailed id place addr allowFallback error)
  | some (.accepting _) | some (.webrtc _ _ _) => some (state.finish id (.error error))
  | _ => none

def step (sha1 : List UInt8 -> InfoHash) (state : Attaching) : Label -> Option Attaching
  | .add spec storageError =>
    some { state with client := (state.client.addTorrentSpec sha1 spec storageError).2 }
  | .close =>
    if state.client.closed then some state
    else
      some { state with
        client := state.client.close
        closedTorrents := state.closedTorrents ∪
          (state.client.torrents.entries.map (fun entry => entry.2)).toFinset
        connHandles := state.connHandles.retain (fun key handle =>
          if key.1 ∈ state.client.torrents.entries.map (fun entry => entry.2) then none
          else some handle) }
  | .dropTorrent place =>
    if place < state.client.all.length then
      some { state with closedTorrents := insert place state.closedTorrents }
    else none
  | .detach place =>
    if place ∈ state.closedTorrents /\ place < state.client.all.length then
      some { state with client := state.client.detachTorrent place }
    else none
  | .closeHandles place =>
    if place ∈ state.client.detached then some (state.closeHandles place) else none
  | .dial id place addr allowFallback =>
    if state.fresh id /\ place < state.client.all.length then
      some (state.dialPeer id place addr allowFallback)
    else none
  | .accept id addr => if state.fresh id then some (state.setAttempt id (.accepting addr)) else none
  | .webrtc id place peer =>
    if state.fresh id then
      state.client.all[place]?.map (fun torrent => state.openWebrtc id place torrent peer)
    else none
  | .receive id received => state.receive id received
  | .fail id error => state.fail id error
  | .findTorrent id =>
    match state.attempts.lookup id with
    | some (.accepted addr peer received) => some (state.findTorrent id addr peer received)
    | _ => none
  | .drive id =>
    match state.attempts.lookup id with
    | some (.driving place info received) => some (state.attachDriver id place info received)
    | _ => none
  | .enter id limit victim =>
    match state.attempts.lookup id with
    | some (.entering place info received) =>
      some (state.enterTorrent id place info received limit victim)
    | _ => none
  | .register id =>
    match state.attempts.lookup id with
    | some (.admitted place info received limit) =>
      some (state.register id place info received limit)
    | _ => none
  | .disconnect place addr =>
    some { state with connHandles := state.connHandles.erase (place, addr) }

/-- A client starts without torrents and without connections. -/
def machine (sha1 : List UInt8 -> InfoHash) : Machine Attaching Label where
  init := fun state => Exists fun cfg => Exists fun peerId => Exists fun extensions =>
    state = { client := { sources := some { cfg := cfg } }, peerId := peerId,
              extensions := extensions }
  step := step sha1

end Attaching
end TorrentPlayer.Discovery
