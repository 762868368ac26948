import TorrentPlayer.Core.PeerConn
import TorrentPlayer.Library.Machine

namespace TorrentPlayer.Core

open Library Wire

/-!
# A torrent and its connections

The swarm is the shared torrent with the connections whose handlers have not
ended.  One step is one handler call, or one change made from outside: a
connection attaches or is dropped, the info arrives, a hash job ends.  Storing
a block can suspend a handler, so a received block takes three steps and other
handlers may run between them; a handler that is storing a block does nothing
else.
-/

structure Swarm where
  torrent : Torrent := {}
  conns : List Conn := []

/-- One step.  `conn` is the position of a connection. -/
inductive Event where
  | attach (remoteAddr : SocketAddr) (peerId : Option Bytes) (supportsFast : Bool)
  | message (conn : Nat) (turn : Turn) (message : Message)
  | pieceBegin (conn : Nat) (turn : Turn) (index start : UInt32) (data : Bytes)
  | pieceStore (conn : Nat) (storageOk : Bool)
  | pieceFinish (conn : Nat) (turn : Turn)
  | wake (conn : Nat) (turn : Turn)
  | closed (conn : Nat)
  /-- The handle is closed from either side; the handler ends later. -/
  | closeHandle (conn : Nat)
  /-- The torrent closes and detaches the connection it has for an address. -/
  | dropConn (addr : SocketAddr)
  | markRefocus (conn : Nat)
  | nudge (conn : Nat)
  | setInfo (info : Info) (complete : List Nat) (downloadAll : Bool)
  | hashResult (piece : Nat) (valid : Bool)
  | refreshPiece (piece : Nat) (complete readable : Bool)
  | setPriority (piece : Nat) (priority : PiecePriority)
  | openSeekWindow (now : Instant) (copies : Nat)
  | setDownloadDisallowed (disallowed : Bool)
  | closeTorrent

def Turn.fits (turn : Turn) (torrent : Torrent) : Bool :=
  turn.pick.all (fun picked => torrent.info.any (fun info => picked.req < blockCount info))

namespace Swarm

def onTorrent (swarm : Swarm) (change : Torrent -> Torrent) : Swarm :=
  { swarm with torrent := change swarm.torrent }

/-- Run a handler of the connection at a position.  No step when there is no
such connection, when its handler is not in the required state, or when it
fails. -/
def handle (swarm : Swarm) (position : Nat) (handler : Session -> Option Session) : Option Swarm :=
  match swarm.conns[position]? with
  | none => none
  | some conn =>
    (handler { torrent := swarm.torrent, conn := conn }).map (fun session =>
      { torrent := session.torrent, conns := swarm.conns.set position session.conn })

/-- A handler that is not storing a block, in a turn that fits the torrent. -/
def idle (turn : Turn) (handler : Session -> Option Session) (session : Session) : Option Session :=
  if session.conn.writing.isNone && turn.fits session.torrent then handler session else none

def duplicate (swarm : Swarm) (remoteAddr : SocketAddr) (peerId : Option Bytes) : Bool :=
  swarm.conns.any (fun conn => conn.registered && (conn.remoteAddr == remoteAddr ||
      (peerId.any (fun id => id.any (fun byte => byte != 0)) && !conn.handleClosed &&
        conn.peerId == peerId)))

def retireConnection (addr : SocketAddr) (conn : Conn) : Conn :=
  if conn.registered && conn.remoteAddr == addr then { conn with registered := false } else conn

def dropRegistered (addr : SocketAddr) (conn : Conn) : Conn :=
  if conn.registered && conn.remoteAddr == addr then
    { conn with registered := false, dropped := true, handleClosed := true }
  else conn

def step (swarm : Swarm) : Event -> Option Swarm
  | .attach remoteAddr peerId supportsFast =>
    if swarm.torrent.closed || swarm.duplicate remoteAddr peerId then none
    else
      some { swarm with
        conns := swarm.conns ++
          [{ remoteAddr := remoteAddr, peerId := peerId, supportsFast := supportsFast }] }
  | .message position turn message =>
    swarm.handle position (idle turn (fun session => session.onMessage turn message))
  | .pieceBegin position turn index start data =>
    swarm.handle position (idle turn (fun session =>
      some (session.handlePieceBegin turn index.toNat start.toNat data)))
  | .pieceStore position storageOk =>
    swarm.handle position (fun session =>
      match session.conn.writing with
      | some write =>
        if write.stored.isNone then some (session.handlePieceStore write storageOk) else none
      | none => none)
  | .pieceFinish position turn =>
    swarm.handle position (fun session =>
      match session.conn.writing with
      | some write =>
        if turn.fits session.torrent then
          write.stored.map (fun ok => session.handlePieceFinish turn write ok)
        else none
      | none => none)
  | .wake position turn =>
    swarm.handle position (idle turn (fun session => some (session.onWake turn)))
  | .closed position =>
    match swarm.conns[position]? with
    | none => none
    | some conn =>
      if conn.writing.isNone then
        some
          { torrent := Session.onClosed { torrent := swarm.torrent, conn := conn }
            conns := (swarm.conns.eraseIdx position).map (retireConnection conn.remoteAddr) }
      else none
  | .closeHandle position =>
    swarm.handle position (fun session =>
      some (session.onConn (fun conn => { conn with handleClosed := true })))
  | .dropConn addr =>
    some
      { torrent := swarm.torrent.forgetPeer (peerKeyFromAddr addr)
        conns := swarm.conns.map (dropRegistered addr) }
  | .markRefocus position =>
    swarm.handle position (fun session =>
      some (session.onConn (fun conn => { conn with refocus := true })))
  | .nudge position =>
    swarm.handle position (fun session =>
      some (session.onConn (fun conn => { conn with updateRequest := true })))
  | .setInfo info complete downloadAll =>
    if swarm.torrent.info.isNone then
      some (swarm.onTorrent (fun torrent =>
        torrent.setInfo info (fun piece => decide (piece ∈ complete)) downloadAll
          (swarm.conns.map Conn.pieces)))
    else none
  | .hashResult piece valid =>
    some (swarm.onTorrent (fun torrent => torrent.applyHashResult piece valid))
  | .refreshPiece piece complete readable =>
    some (swarm.onTorrent (fun torrent =>
      torrent.refreshPieceCompletion piece complete readable))
  | .setPriority piece priority =>
    some (swarm.onTorrent (fun torrent =>
      torrent.modifyPiece piece (fun entry => { entry with priority := priority })))
  | .openSeekWindow now copies =>
    some (swarm.onTorrent (fun torrent => { torrent with seekHedge := some (now, copies) }))
  | .setDownloadDisallowed disallowed =>
    some (swarm.onTorrent (fun torrent =>
      { torrent with dataDownloadDisallowed := disallowed }))
  | .closeTorrent =>
    some (swarm.onTorrent (fun torrent => { torrent with closed := true }))

def machine : Machine Swarm Event where
  init := fun swarm => swarm = {}
  step := step

end Swarm
end TorrentPlayer.Core
