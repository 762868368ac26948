import TorrentPlayer.Core.Torrent
import TorrentPlayer.Wire.Message
import Mathlib.Data.Finset.Card
import Mathlib.Data.Finset.Range

namespace TorrentPlayer.Core

open Library Wire

/-!
# Connection handlers

One handler serves one connection.  It owns the state of its peer and works on
the torrent that all handlers share.  A handler function takes both and returns
both.

What a handler reads from clocks, rate estimates and the block picker is an
argument, `Turn`.  The picker's proposals are arbitrary here; the handler has
to cope with any of them.
-/

inductive IpAddr where
  | v4 (bits : BitVec 32)
  | v6 (octets : List UInt8)
  deriving DecidableEq

structure SocketAddr where
  ip : IpAddr
  port : UInt16
  deriving DecidableEq

def peerKeyFromAddr (addr : SocketAddr) : PeerKey :=
  let high : BitVec 64 :=
    match addr.ip with
    | .v4 bits => bits.setWidth 64
    | .v6 octets => octets.foldl
        (fun h octet => (h * 16777619#64) ^^^ octet.toBitVec.setWidth 64) 0#64
  ((high <<< 16) ||| addr.port.toBitVec.setWidth 64).toNat

/-! ## State -/

/-- A received block on its way into the storage. -/
structure ChunkWrite where
  req : Nat
  index : Nat
  start : Nat
  data : Bytes
  /-- The answer of the storage, once it has one. -/
  stored : Option Bool := none

structure Conn where
  remoteAddr : SocketAddr
  peerId : Option Bytes := none
  supportsFast : Bool := false
  /-- The handle is the torrent's registered one for its address. -/
  registered : Bool := true
  /-- The torrent closed this connection and detached it. -/
  dropped : Bool := false
  handleClosed : Bool := false
  refocus : Bool := false
  updateRequest : Bool := false
  sent : List Message := []
  peerChoking : Bool := true
  peerSentHaveAll : Bool := false
  peerAllowedFast : List Nat := []
  /-- The pieces the peer announced one by one. -/
  pieces : Finset Nat := ∅
  maxRequests : Nat := 250
  peakRequests : Nat := 0
  pipelineLimit : Nat := 0
  outstandingRequests : List Nat := []
  cancelledRequests : List Nat := []
  cancelledAt : FiniteMap Nat Instant := ∅
  validReceiveChunks : FiniteMap Nat Nat := ∅
  lastUsefulChunkReceived : Option Instant := none
  idleRefillAt : Option Instant := none
  needRequestUpdate : Bool := true
  /-- The block this handler is storing.  It does nothing else meanwhile. -/
  writing : Option ChunkWrite := none

/-- How a peer gets a picked block. -/
inductive Take where
  | free
  | copy (eager : Bool)
  | from (holder : PeerKey)

/-- A proposal of the picker, with the fate of the request if one is sent. -/
structure Picked where
  req : Nat
  take : Take
  sendOk : Bool := true

/-- What an extension message turns out to hold. -/
inductive Extended where
  | handshake (reqq : Option Nat)
  /-- The metadata piece that completes the info. -/
  | metadataDone
  | other
  /-- The handler returns an error and the connection ends. -/
  | failed

/-- What one step of a handler reads from outside: the time, the measured round
trip, the queue limit computed from rates, the picker's proposals, the decoded
extension payload, whether an upload failed, whether interest has to be
announced, and whether the hash workers took a job. -/
structure Turn where
  now : Instant := 0
  rtt : Nat := 0
  queueLimit : Nat := 0
  pick : List Picked := []
  saving : Bool := false
  extended : Extended := .other
  uploadFailed : Bool := false
  needsInterest : Bool := false
  hashQueued : Bool := true

/-- The torrent and one of its connections, as a handler sees them. -/
structure Session where
  torrent : Torrent
  conn : Conn

namespace Conn

variable (conn : Conn)

def key : PeerKey :=
  peerKeyFromAddr conn.remoteAddr

def maxLocalToRemoteRequests : Nat :=
  (2 ^ 20 - 2 ^ 19 - 5) / 17

def nominalMaxRequests : Nat :=
  let base := max 1 (min (min (conn.peakRequests * 2) conn.maxRequests) maxLocalToRemoteRequests)
  if 0 < conn.pipelineLimit then min base conn.pipelineLimit else base

def isLowOnRequests : Bool :=
  conn.outstandingRequests.length <= conn.nominalMaxRequests / 2

def idleRefillEvery : Nat :=
  250

def wantsRefill (now : Instant) : Bool :=
  conn.isLowOnRequests && conn.idleRefillAt.all (fun last => idleRefillEvery <= now - last)

def send (message : Message) : Conn :=
  if conn.handleClosed then conn else { conn with sent := conn.sent ++ [message] }

/-- Whether the peer answers a cancel with a reject.  Old Transmission versions
announce the extension and do not. -/
def rejectsCancels : Bool :=
  conn.supportsFast && conn.peerId.all (fun id =>
    !(id.take 3 == [45, 84, 82]) || !(id[7]? == some 45) || id[3]?.any (fun v => 52 <= v))

end Conn

namespace Session

variable (session : Session) (now : Instant) (req : Nat) (conn : Conn) (turn : Turn) (index : Nat)
  (write : ChunkWrite) (torrent : Torrent)

def onTorrent (change : Torrent -> Torrent) : Session :=
  { session with torrent := change session.torrent }

def onConn (change : Conn -> Conn) : Session :=
  { session with conn := change session.conn }

def askForUpdate : Session :=
  session.onConn (fun conn => { conn with needRequestUpdate := true })

def askForUpdateIf (condition : Bool) : Session :=
  if condition then session.askForUpdate else session

/-- Take a request out of the queue, tell the peer, and remember when. -/
def noteCancel (coord : BlockCoord) (conn : Conn) : Conn :=
  let told := { conn with
    outstandingRequests := conn.outstandingRequests.filter (fun other => other != req)
    cancelledAt := AList.insert req now conn.cancelledAt
    cancelledRequests :=
      if conn.rejectsCancels then conn.cancelledRequests.insert req else conn.cancelledRequests }
  told.send (.cancel (.ofNat coord.piece) (.ofNat coord.offset) (.ofNat (max coord.length 1)))

/-- Give up a peer's shares of a block: its second copy, and the ownership if
the table still names the peer. -/
def giveUp (peer : PeerKey) (req : Nat) (torrent : Torrent) : Torrent :=
  if torrent.requestingPeer req = some peer then
    (torrent.releaseHedge req peer).releaseRequest req peer
  else torrent.releaseHedge req peer

/-- Cancel a request without erasing an assignment that another peer took. -/
def cancelOutstanding : Session :=
  if req ∈ session.conn.outstandingRequests then
    (session.onConn (noteCancel now req (session.torrent.blockCoord req))).onTorrent
      (giveUp session.conn.key req)
  else session

def cancelAll (reqs : List Nat) : Session :=
  reqs.foldl (fun session req => session.cancelOutstanding now req) session

/-- Forget a cancel that the peer never answered. -/
def forgetCancel : Conn :=
  { conn with
    cancelledAt := AList.erase req conn.cancelledAt
    cancelledRequests := conn.cancelledRequests.filter (fun other => other != req)
    validReceiveChunks :=
      if req ∈ conn.outstandingRequests then conn.validReceiveChunks
      else AList.erase req conn.validReceiveChunks
    needRequestUpdate := true }

/-- A peer that delivered nothing for this long releases its queue. -/
def deadPeerAfter : Nat :=
  30000

/-- The cancels that have waited for an answer for too long. -/
def expiredCancels : List Nat :=
  (conn.cancelledAt.entries.filter (fun entry =>
    max (max turn.rtt 200 * 8) 4000 <= turn.now - entry.2)).map Sigma.fst

def expireCancels : Session :=
  session.onConn (fun conn =>
    (expiredCancels conn turn).foldl (fun conn req => forgetCancel req conn) conn)

/-- The requests of a peer that has gone silent, as far as the table still
knows when they were made. -/
def staleRequests : List Nat :=
  if session.conn.lastUsefulChunkReceived.all (fun last => deadPeerAfter <= turn.now - last) then
    session.conn.outstandingRequests.filter (fun req =>
      (session.torrent.requestWhen req).any (fun asked => deadPeerAfter < turn.now - asked))
  else []

/-- A peer that lost requests restarts from a smaller queue. -/
def lowerPeak (count : Nat) (conn : Conn) : Conn :=
  { conn with peakRequests := conn.peakRequests - count }

def releaseStale (stale : List Nat) : Session :=
  if stale.isEmpty then session
  else
    ((session.onConn (lowerPeak stale.length)).cancelAll now stale).askForUpdate

def expireStaleRequests : Session :=
  (session.expireCancels turn).releaseStale turn.now ((session.expireCancels turn).staleRequests turn)

def spendHedge (now : Instant) (eager : Bool) : Bool × Torrent :=
  if eager then torrent.takeSeekHedge now else (true, torrent)

def claimCopy (req : Nat) (me : PeerKey) (now : Instant) (eager : Bool) : Bool × Torrent :=
  let budget := spendHedge torrent now eager
  let claimed := budget.2.claimHedge req me
  if budget.1 then
    (claimed.1, if !claimed.1 && eager then claimed.2.refundSeekHedge else claimed.2)
  else (false, budget.2)

def claimTake (me : PeerKey) (now : Instant) (picked : Picked) : Bool × Torrent :=
  match picked.take with
  | .free => torrent.claimRequest picked.req me now
  | .from holder => (torrent.releaseRequest picked.req holder).claimRequest picked.req me now
  | .copy eager => claimCopy torrent picked.req me now eager

def claimPicked (picked : Picked) : Bool × Session :=
  let claimed := claimTake session.torrent session.conn.key now picked
  (claimed.1, { session with torrent := claimed.2 })

/-- Undo a claim whose request could not be sent. -/
def unclaimPicked (picked : Picked) : Session :=
  match picked.take with
  | .copy eager =>
    session.onTorrent (fun torrent =>
      if eager then (torrent.clearHedge picked.req).refundSeekHedge
      else torrent.clearHedge picked.req)
  | _ => session.onTorrent (fun torrent => torrent.releaseRequest picked.req session.conn.key)

def sendRequest : Session :=
  let coord := session.torrent.blockCoord req
  session.onConn (fun conn =>
    { conn with
      sent := conn.sent ++ [.request (.ofNat coord.piece) (.ofNat coord.offset)
        (.ofNat (max coord.length 1))]
      validReceiveChunks := AList.insert req
        ((conn.validReceiveChunks.lookup req).getD 0 + 1) conn.validReceiveChunks
      cancelledRequests := conn.cancelledRequests.filter (fun other => other != req)
      cancelledAt := AList.erase req conn.cancelledAt
      outstandingRequests := conn.outstandingRequests.insert req })

/-- Work through the picker's proposals until one cannot be sent.  The number
counts the requests sent. -/
def takeBlocks (now : Instant) : List Picked -> Nat -> Session -> Nat × Session
  | [], added, session => (added, session)
  | picked :: rest, added, session =>
    if picked.req ∈ session.conn.outstandingRequests then takeBlocks now rest added session
    else
      if (session.claimPicked now picked).1 then
        if picked.sendOk then
          takeBlocks now rest (added + 1) ((session.claimPicked now picked).2.sendRequest picked.req)
        else (added, (session.claimPicked now picked).2.unclaimPicked picked)
      else takeBlocks now rest added (session.claimPicked now picked).2

/-- A peer that announced everything before the info was known gets its pieces
now.  It was counted when it announced them. -/
def fillHaveAll : Session :=
  let numPieces := session.torrent.numPieces
  session.onConn (fun conn =>
    if conn.peerSentHaveAll && 0 < numPieces && conn.pieces.card < numPieces then
      { conn with pieces := conn.pieces ∪ Finset.range numPieces }
    else conn)

/-- The requests to cancel before new ones are made. -/
def displaced : List Nat :=
  session.torrent.displacedRequests session.conn.outstandingRequests session.conn.key ++
    if session.conn.refocus then
      session.conn.outstandingRequests.filter (fun req =>
        session.torrent.piecePriority (session.torrent.blockCoord req).piece != .now)
    else []

def beginUpdate (conn : Conn) : Conn :=
  { conn with needRequestUpdate := false, refocus := false, pipelineLimit := turn.queueLimit }

/-- Cancel what is displaced and settle the limits for the new requests. -/
def prepareRequests : Session :=
  ((session.cancelAll turn.now session.displaced).onConn (beginUpdate turn)).fillHaveAll

/-- Close an update that sent `added` requests. -/
def endUpdate (wasEmpty : Bool) (added : Nat) (conn : Conn) : Conn :=
  { conn with
    peakRequests := max conn.peakRequests conn.outstandingRequests.length
    idleRefillAt := if added == 0 && (wasEmpty || !turn.saving) then some turn.now else none }

/-- The proposals that fit into the peer's limit. -/
def roomFor (picks : List Picked) : List Picked :=
  picks.take (conn.nominalMaxRequests - conn.outstandingRequests.length)

/-- Make requests up to the peer's limit. -/
def fillQueue : Session :=
  let taken := takeBlocks turn.now (roomFor session.conn turn.pick) 0 session
  taken.2.onConn (endUpdate turn session.conn.outstandingRequests.isEmpty taken.1)

def updateRequests : Session :=
  if session.torrent.closed || session.torrent.dataDownloadDisallowed ||
      !session.torrent.haveInfo || session.conn.handleClosed then session
  else (session.prepareRequests turn).fillQueue turn

def afterMessage : Session :=
  if session.conn.needRequestUpdate then session.updateRequests turn else session

/-! ## Messages -/

def setChoking (choking : Bool) (conn : Conn) : Conn :=
  { conn with peerChoking := choking }

def handleChoke : Session :=
  let reqs := session.conn.outstandingRequests.filter (fun req =>
    !decide ((session.torrent.blockCoord req).piece ∈ session.conn.peerAllowedFast))
  ((session.onConn (setChoking true)).cancelAll turn.now reqs).askForUpdate

def handleUnchoke : Session :=
  (session.onConn (setChoking false)).askForUpdate

/-- Record and count one more piece of the peer. -/
def announcePiece : Session :=
  if index ∈ session.conn.pieces then session
  else
    (session.onConn (fun conn => { conn with pieces := insert index conn.pieces })).onTorrent
      (fun torrent => torrent.noteAvailability {index} 1)

def handleHave : Session :=
  (session.announcePiece index).askForUpdateIf
    (!decide (index ∈ session.conn.pieces) && session.torrent.wanted index)

/-- The pieces of a bitfield.  Bits past the last piece are dropped once the
number of pieces is known. -/
def bitfieldPieces (bits : Bytes) (numPieces : Nat) : Finset Nat :=
  (Finset.range (unmarshalBitfield bits).length).filter (fun index =>
    (unmarshalBitfield bits)[index]? = some true /\ (numPieces = 0 ∨ index < numPieces))

/-- Count a peer piece by piece again, if it was counted as having all. -/
def uncountHaveAll : Torrent :=
  if conn.peerSentHaveAll then
    (torrent.noteHaveAllAvailability (-1)).noteAvailability conn.pieces 1
  else torrent

/-- Replace the record of the peer's pieces and count the difference. -/
def announceBitfield (bits : Bytes) : Session :=
  let next := bitfieldPieces bits session.torrent.numPieces
  let old := session.conn.pieces
  (session.onTorrent (fun torrent =>
    ((uncountHaveAll session.conn torrent).noteAvailability (old \ next) (-1)).noteAvailability
      (next \ old) 1)).onConn (fun conn =>
        { conn with pieces := next, peerSentHaveAll := false })

def handleBitfield (bits : Bytes) : Session :=
  let next := bitfieldPieces bits session.torrent.numPieces
  let old := session.conn.pieces
  let unavailable := session.conn.outstandingRequests.filter (fun req =>
    decide ((session.torrent.blockCoord req).piece ∈ old \ next))
  let asked := (session.announceBitfield bits).askForUpdateIf
    (decide (Exists fun index => index ∈ next \ old /\ session.torrent.wanted index = true))
  (asked.cancelAll turn.now unavailable).askForUpdateIf (!unavailable.isEmpty)

/-- Count the peer once for all pieces, instead of piece by piece. -/
def announceHaveAll : Session :=
  if session.conn.peerSentHaveAll then session
  else
    (session.onTorrent (fun torrent =>
      (torrent.noteAvailability session.conn.pieces (-1)).noteHaveAllAvailability 1)).onConn (fun conn =>
          { conn with
            pieces := conn.pieces ∪ Finset.range session.torrent.numPieces
            peerSentHaveAll := true })

def handleHaveAll : Session :=
  if session.conn.peerSentHaveAll then session
  else session.announceHaveAll.askForUpdate.updateRequests turn

def countAnswer (expected : FiniteMap Nat Nat) : FiniteMap Nat Nat :=
  match expected.lookup req with
  | none => expected
  | some count => if count <= 1 then AList.erase req expected else AList.insert req (count - 1) expected

/-- An answer for a block arrived: it is neither outstanding nor cancelled. -/
def settleRequest : Conn :=
  { conn with
    outstandingRequests := conn.outstandingRequests.filter (fun other => other != req)
    cancelledRequests := conn.cancelledRequests.filter (fun other => other != req)
    cancelledAt := AList.erase req conn.cancelledAt
    validReceiveChunks := countAnswer req conn.validReceiveChunks }

/-- The peer will not send a block: give up its shares of the block. -/
def relinquish : Session :=
  let me := session.conn.key
  (session.onConn (settleRequest req)).onTorrent (fun torrent =>
    let unowned :=
      if torrent.requestingPeer req = some me then torrent.clearAssignment req else torrent
    if unowned.hedgePeer req = some me then unowned.releaseHedge req me else unowned)

def handleReject (start : Nat) : Session :=
  let req := reqIndexFromPieceAndOffset index start session.torrent.pieceLength
  let lost := if req ∈ session.conn.outstandingRequests then 1 else 0
  ((session.onConn (lowerPeak lost)).relinquish req).askForUpdate.updateRequests turn

def allowFast (conn : Conn) : Conn :=
  { conn with peerAllowedFast := conn.peerAllowedFast.insert index }

def handleAllowedFast : Session :=
  (session.onConn (allowFast index)).askForUpdate.updateRequests turn

/-- The queue length the peer accepts, from its extension handshake. -/
def limitRequests (reqq : Option Nat) (conn : Conn) : Conn :=
  { conn with
    maxRequests :=
      match reqq with
      | some (limit + 1) => max 1 (min (limit + 1) Conn.maxLocalToRemoteRequests)
      | _ => conn.maxRequests }

/-- An extension message, as far as it concerns requests.  No session when the
handler fails. -/
def handleExtended : Option Session :=
  match turn.extended with
  | .failed => none
  | .other => some session
  | .metadataDone => some (session.askForUpdate.updateRequests turn)
  | .handshake reqq =>
    some ((session.onConn (limitRequests reqq)).askForUpdate.updateRequests turn)

/-- Every message but a block.  No session when the handler fails. -/
def onMessage : Message -> Option Session
  | .keepalive | .interested | .notInterested | .cancel .. | .port _ | .hashRequest _
  | .hashes .. | .hashReject _ => some (session.afterMessage turn)
  | .choke => some ((session.handleChoke turn).afterMessage turn)
  | .unchoke => some ((session.handleUnchoke.updateRequests turn).afterMessage turn)
  | .have index => some ((session.handleHave index.toNat).afterMessage turn)
  | .bitfield bits => some ((session.handleBitfield turn bits).afterMessage turn)
  | .request .. => if turn.uploadFailed then none else some (session.afterMessage turn)
  | .piece .. => none
  | .suggest _ => some (session.askForUpdate.afterMessage turn)
  | .haveAll => some ((session.handleHaveAll turn).afterMessage turn)
  | .haveNone => some ((session.handleBitfield turn []).afterMessage turn)
  | .reject index start _ =>
    some ((session.handleReject turn index.toNat start.toNat).afterMessage turn)
  | .allowedFast index => some ((session.handleAllowedFast turn index.toNat).afterMessage turn)
  | .extended .. => (session.handleExtended turn).map (fun session => session.afterMessage turn)

/-- Whether the handler waits for an answer for this block. -/
def expects (req : Nat) : Bool :=
  decide (req ∈ conn.outstandingRequests) ||
    (conn.validReceiveChunks.lookup req).any (fun count => 0 < count)

/-- A block arrived: it is no longer outstanding, and its second copy is settled. -/
def receiveChunk : Session :=
  let me := session.conn.key
  (session.onConn (settleRequest req)).onTorrent (fun torrent =>
    if torrent.hedgePeer req = some me then torrent.clearHedge req else torrent)

/-- A block that was received or is being written already: give up its shares,
so that it can be asked for again should the other write fail. -/
def wasteChunk : Session :=
  (session.receiveChunk req).onTorrent (fun torrent =>
    (torrent.releaseRequest req session.conn.key).releaseHedge req session.conn.key)

/-- Take up the storing of a block that was reserved. -/
def startWrite : Session :=
  { torrent := torrent
    conn := { (session.receiveChunk write.req).conn with writing := some write } }

/-- The first part of `handle_piece`, up to the reservation of the block.  With
the reservation the handler goes on to the storage; without it the block is
wasted and the message is done. -/
def handlePieceBegin (start : Nat) (data : Bytes) : Session :=
  let req := reqIndexFromPieceAndOffset index start session.torrent.pieceLength
  if expects session.conn req then
    let received := session.receiveChunk req
    let reserved := received.torrent.beginChunkWrite req
    if reserved.1 then
      session.startWrite { req := req, index := index, start := start, data := data } reserved.2
    else
      ((session.wasteChunk req).askForUpdateIf (received.conn.wantsRefill turn.now)).afterMessage turn
  else session.afterMessage turn

/-- The storage answers.  A range outside its piece is never stored. -/
def handlePieceStore (storageOk : Bool) : Session :=
  let ok := storageOk &&
    (session.torrent.chunkStorageError write.index write.start write.data.length).isNone
  session.onConn (fun conn => { conn with writing := some { write with stored := some ok } })

/-- A block was stored: nobody needs to send it any more, and a piece with all
its blocks is hashed. -/
def acceptChunk : Torrent :=
  let cleared := torrent.onChunkReceived write.req
  if cleared.pieceAllDirty write.index then cleared.queuePieceHash write.index turn.hashQueued
  else cleared

/-- End the storing of a block. -/
def endWrite (ok : Bool) : Session :=
  let ended := (session.onTorrent (fun torrent => torrent.finishChunkWrite write.req ok)).onConn
    (fun conn => { conn with writing := none })
  ended.onTorrent (fun torrent =>
    if ok then acceptChunk turn write torrent
    else torrent.releaseRequest write.req session.conn.key)

def noteUseful : Conn :=
  { conn with lastUsefulChunkReceived := some now }

/-- The last part of `handle_piece`. -/
def handlePieceFinish (ok : Bool) : Session :=
  let ended := session.endWrite turn write ok
  let handled :=
    if ok then
      let received := ended.onConn (noteUseful turn.now)
      received.askForUpdateIf (received.conn.wantsRefill turn.now)
    else ended.askForUpdate
  handled.afterMessage turn

/-- Whether a wake has a reason to refill the queue. -/
def updateDue : Bool :=
  let conn := session.conn
  conn.needRequestUpdate || turn.needsInterest ||
    ((!conn.peerChoking || !conn.peerAllowedFast.isEmpty) && conn.wantsRefill turn.now) ||
    !(session.torrent.displacedRequests conn.outstandingRequests conn.key).isEmpty ||
    (conn.updateRequest && conn.outstandingRequests.length < conn.nominalMaxRequests) ||
    conn.refocus

def takeUpdateRequest : Conn :=
  { conn with updateRequest := false }

def refillOnWake : Session :=
  if session.updateDue turn then (session.onConn takeUpdateRequest).updateRequests turn
  else session.onConn takeUpdateRequest

def onWake : Session :=
  if session.torrent.dataDownloadDisallowed then
    session.cancelAll turn.now session.conn.outstandingRequests
  else (session.expireStaleRequests turn).refillOnWake turn

/-- What `on_closed` does to the torrent. -/
def onClosed : Torrent :=
  let uncounted :=
    if session.conn.peerSentHaveAll then session.torrent.noteHaveAllAvailability (-1)
    else session.torrent.noteAvailability session.conn.pieces (-1)
  let cleared := session.conn.outstandingRequests.foldl (fun torrent req =>
    if torrent.requestingPeer req = some session.conn.key then torrent.clearAssignment req
    else torrent) uncounted
  cleared.forgetPeer session.conn.key

end Session
end TorrentPlayer.Core
