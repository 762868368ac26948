import TorrentPlayer.Core.Swarm

namespace TorrentPlayer.Core

open Library BlockTable Wire Option List

/-!
# What a handler can do

The handlers share a small repertoire.  Apart from announcing pieces and from
storing a block, everything a handler does is a sequence of the moves below:
adjusting its own limits and timers, cancelling a request, working on one
proposal of the picker, and giving up a block that the peer will not send or
that arrived in vain.

An invariant of the swarm is checked against these moves once, and not against
every handler.
-/

/-- A change of a connection that leaves its identity, what the peer announced
and what it was asked for as they are. -/
structure Conn.Tuned (before after : Conn) : Prop where
  remoteAddr : after.remoteAddr = before.remoteAddr
  dropped : after.dropped = before.dropped
  handleClosed : before.handleClosed = true -> after.handleClosed = true
  peerSentHaveAll : after.peerSentHaveAll = before.peerSentHaveAll
  pieces : after.pieces = before.pieces
  outstandingRequests : after.outstandingRequests = before.outstandingRequests
  expected : ∀ req ∈ after.validReceiveChunks, req ∈ before.validReceiveChunks
  writing : after.writing = before.writing

namespace Conn.Tuned

theorem refl (conn : Conn) : conn.Tuned conn :=
  ⟨rfl, rfl, id, rfl, rfl, rfl, fun _ => id, rfl⟩

theorem trans {first second third : Conn} (earlier : first.Tuned second)
    (later : second.Tuned third) : first.Tuned third where
  remoteAddr := later.remoteAddr.trans earlier.remoteAddr
  dropped := later.dropped.trans earlier.dropped
  handleClosed := fun closed => later.handleClosed (earlier.handleClosed closed)
  peerSentHaveAll := later.peerSentHaveAll.trans earlier.peerSentHaveAll
  pieces := later.pieces.trans earlier.pieces
  outstandingRequests := later.outstandingRequests.trans earlier.outstandingRequests
  expected := fun req member => earlier.expected req (later.expected req member)
  writing := later.writing.trans earlier.writing

end Conn.Tuned

/-- A change of the requests and of the copy budget, and of nothing else. -/
structure Torrent.OnlyRequests (before after : Torrent) : Prop where
  frame : after = { before with blocks := after.blocks, seekHedge := after.seekHedge }
  writing : after.blocks.writing = before.blocks.writing

namespace Torrent.OnlyRequests

theorem info {before after : Torrent} (only : before.OnlyRequests after) : after.info = before.info := by
  rw [only.frame]

variable (torrent : Torrent)

theorem refl : torrent.OnlyRequests torrent :=
  ⟨rfl, rfl⟩

theorem trans {first second third : Torrent} (earlier : first.OnlyRequests second)
    (later : second.OnlyRequests third) : first.OnlyRequests third where
  frame := by rw [later.frame, earlier.frame]
  writing := later.writing.trans earlier.writing

theorem withBlocks {blocks : BlockTable} (same : blocks.writing = torrent.blocks.writing) :
    torrent.OnlyRequests (torrent.withBlocks blocks) :=
  ⟨rfl, same⟩

section
variable (req : Nat)
variable (peer : PeerKey)

theorem releaseRequest : torrent.OnlyRequests (torrent.releaseRequest req peer) :=
  .withBlocks torrent (writing_release ..)

theorem releaseHedge : torrent.OnlyRequests (torrent.releaseHedge req peer) :=
  .withBlocks torrent (writing_releaseSecond ..)

theorem clearAssignment : torrent.OnlyRequests (torrent.clearAssignment req) :=
  .withBlocks torrent (writing_clearOwner ..)

theorem clearHedge : torrent.OnlyRequests (torrent.clearHedge req) :=
  .withBlocks torrent (writing_clearSecond ..)

theorem onChunkReceived : torrent.OnlyRequests (torrent.onChunkReceived req) :=
  .withBlocks torrent (writing_clear ..)

theorem forgetPeer : torrent.OnlyRequests (torrent.forgetPeer peer) :=
  .withBlocks torrent (writing_forgetPeer ..)

theorem claimRequest (asked : Instant) : torrent.OnlyRequests (torrent.claimRequest req peer asked).2 := by
  rw [Torrent.claimRequest]
  split
  · exact .refl _
  · exact .withBlocks torrent (writing_claim ..)

theorem claimHedge : torrent.OnlyRequests (torrent.claimHedge req peer).2 := by
  rw [Torrent.claimHedge]
  split
  · exact .refl _
  · exact .withBlocks torrent (writing_claimSecond ..)

end

theorem takeSeekHedge (now : Instant) : torrent.OnlyRequests (torrent.takeSeekHedge now).2 := by
  rw [Torrent.takeSeekHedge]
  split
  · split
    · exact ⟨rfl, rfl⟩
    · exact .refl _
  · exact .refl _

theorem refundSeekHedge : torrent.OnlyRequests torrent.refundSeekHedge :=
  ⟨rfl, rfl⟩

end Torrent.OnlyRequests

/-- The end of a connection takes back what it announced, then clears requests and forgets
the peer. -/
theorem Session.onClosed_induction {R : Torrent -> Torrent -> Prop} (session : Session)
    (refl : ∀ torrent, R torrent torrent)
    (trans : ∀ {first second third}, R first second -> R second third -> R first third)
    (clear : ∀ torrent req, R torrent (torrent.clearAssignment req))
    (forget : ∀ torrent, R torrent (torrent.forgetPeer session.conn.key)) :
    R (if session.conn.peerSentHaveAll then session.torrent.noteHaveAllAvailability (-1)
      else session.torrent.noteAvailability session.conn.pieces (-1)) session.onClosed := by
  refine trans ?_ (forget _)
  generalize (if session.conn.peerSentHaveAll then session.torrent.noteHaveAllAvailability (-1)
    else session.torrent.noteAvailability session.conn.pieces (-1)) = start
  induction session.conn.outstandingRequests generalizing start with
  | nil => exact refl start
  | cons req reqs ih =>
    rw [foldl_cons]
    refine trans ?_ (ih _)
    split
    · exact clear start req
    · exact refl start

variable {session after : Session} {turn : Turn}

namespace Session

/-- The handler may request blocks: the info is known and the handle is open. -/
structure MayRequest (session : Session) (picked : Picked) : Prop where
  isOpen : session.conn.handleClosed = false
  fits : Exists fun info => session.torrent.info = some info /\ picked.req < blockCount info
  fresh : picked.req ∉ session.conn.outstandingRequests

inductive Move : Session -> Session -> Prop
  | tune {session : Session} {conn : Conn} (tuned : session.conn.Tuned conn) :
      Move session { session with conn := conn }
  | cancel {session : Session} (now : Instant) {req : Nat}
      (member : req ∈ session.conn.outstandingRequests) :
      Move session (session.cancelOutstanding now req)
  | fill {session : Session} : Move session session.fillHaveAll
  | refused {session : Session} (now : Instant) {picked : Picked}
      (may : session.MayRequest picked) (lost : (session.claimPicked now picked).1 = false) :
      Move session (session.claimPicked now picked).2
  | requested {session : Session} (now : Instant) {picked : Picked}
      (may : session.MayRequest picked) (won : (session.claimPicked now picked).1 = true) :
      Move session ((session.claimPicked now picked).2.sendRequest picked.req)
  | unsent {session : Session} (now : Instant) {picked : Picked}
      (may : session.MayRequest picked) (won : (session.claimPicked now picked).1 = true) :
      Move session ((session.claimPicked now picked).2.unclaimPicked picked)
  | relinquished {session : Session} (req : Nat) : Move session (session.relinquish req)
  | wasted {session : Session} (req : Nat) : Move session (session.wasteChunk req)

inductive Moves : Session -> Session -> Prop
  | refl {session : Session} : Moves session session
  | next {first second third : Session} (earlier : Moves first second)
      (move : Move second third) : Moves first third

variable {first : Session}

namespace Moves

theorem single {second : Session} (move : Move first second) : Moves first second :=
  .next .refl move

theorem trans {second third : Session} (earlier : Moves first second) (later : Moves second third) :
    Moves first third := by
  induction later with
  | refl => exact earlier
  | next _ move ih => exact .next ih move

theorem tune {change : Conn -> Conn} (tuned : session.conn.Tuned (change session.conn)) :
    Moves session (session.onConn change) :=
  .single (.tune tuned)

end Moves

section
variable (session : Session)

theorem claimPicked_conn (now : Instant) (picked : Picked) :
    (session.claimPicked now picked).2.conn = session.conn :=
  rfl

theorem unclaimPicked_conn (picked : Picked) : (session.unclaimPicked picked).conn = session.conn := by
  rw [unclaimPicked]
  split <;> rfl

theorem onlyRequests_spendHedge (torrent : Torrent) (now : Instant) (eager : Bool) :
    torrent.OnlyRequests (spendHedge torrent now eager).2 := by
  rw [spendHedge]
  split
  · exact .takeSeekHedge torrent now
  · exact .refl torrent

theorem onlyRequests_claimCopy (torrent : Torrent) (req : Nat) (me : PeerKey) (now : Instant)
    (eager : Bool) : torrent.OnlyRequests (claimCopy torrent req me now eager).2 := by
  have spent := onlyRequests_spendHedge torrent now eager
  have claimed := spent.trans (.claimHedge _ req me)
  rw [claimCopy]
  split
  · split
    · exact claimed.trans (.refundSeekHedge _)
    · exact claimed
  · exact spent

theorem onlyRequests_claimPicked (now : Instant) (picked : Picked) :
    session.torrent.OnlyRequests (session.claimPicked now picked).2.torrent := by
  rw [claimPicked, claimTake]
  split
  · exact .claimRequest ..
  · exact (Torrent.OnlyRequests.releaseRequest ..).trans (.claimRequest ..)
  · exact onlyRequests_claimCopy ..

theorem onlyRequests_unclaimPicked (picked : Picked) :
    session.torrent.OnlyRequests (session.unclaimPicked picked).torrent := by
  have cleared := Torrent.OnlyRequests.clearHedge session.torrent picked.req
  rw [unclaimPicked]
  split
  · rw [onTorrent]
    split
    · exact cleared.trans (.refundSeekHedge _)
    · exact cleared
  · exact .releaseRequest ..

variable (req : Nat)

theorem onlyRequests_relinquish : session.torrent.OnlyRequests (session.relinquish req).torrent := by
  have unowned : ∀ torrent : Torrent, torrent.OnlyRequests
      (if torrent.requestingPeer req = some session.conn.key then torrent.clearAssignment req
        else torrent) := by
    intro torrent
    split
    · exact .clearAssignment torrent req
    · exact .refl torrent
  have uncopied : ∀ torrent : Torrent, torrent.OnlyRequests
      (if torrent.hedgePeer req = some session.conn.key then
        torrent.releaseHedge req session.conn.key else torrent) := by
    intro torrent
    split
    · exact .releaseHedge torrent req session.conn.key
    · exact .refl torrent
  exact (unowned session.torrent).trans (uncopied _)

theorem onlyRequests_receiveChunk : session.torrent.OnlyRequests (session.receiveChunk req).torrent := by
  rw [receiveChunk, onTorrent]
  split
  · exact .clearHedge ..
  · exact .refl _

theorem onlyRequests_giveUp (torrent : Torrent) (peer : PeerKey) (req : Nat) :
    torrent.OnlyRequests (giveUp peer req torrent) := by
  have released := Torrent.OnlyRequests.releaseHedge torrent req peer
  rw [giveUp]
  split
  · exact released.trans (.releaseRequest _ req peer)
  · exact released

theorem onlyRequests_cancelOutstanding (now : Instant) (req : Nat) :
    session.torrent.OnlyRequests (session.cancelOutstanding now req).torrent := by
  rw [cancelOutstanding]
  split
  · exact onlyRequests_giveUp ..
  · exact .refl _

theorem sendRequest_torrent : (session.sendRequest req).torrent = session.torrent :=
  rfl

theorem sendRequest_handleClosed : (session.sendRequest req).conn.handleClosed = session.conn.handleClosed :=
  rfl

end

theorem Move.onlyRequests (move : Move session after) : session.torrent.OnlyRequests after.torrent := by
  cases move with
  | tune => exact .refl _
  | cancel => exact onlyRequests_cancelOutstanding ..
  | fill => exact .refl _
  | refused | requested => exact onlyRequests_claimPicked ..
  | unsent => exact (onlyRequests_claimPicked ..).trans (onlyRequests_unclaimPicked ..)
  | relinquished => exact onlyRequests_relinquish ..
  | wasted req =>
    exact (onlyRequests_receiveChunk session req).trans
      ((Torrent.OnlyRequests.releaseRequest _ req session.conn.key).trans
        (.releaseHedge _ req session.conn.key))

theorem Moves.onlyRequests {last : Session} (moves : Moves first last) :
    first.torrent.OnlyRequests last.torrent := by
  induction moves with
  | refl => exact .refl _
  | next _ move ih => exact ih.trans move.onlyRequests

theorem Moves.fits {last : Session} (moves : Moves first last)
    (fits : turn.fits first.torrent = true) : turn.fits last.torrent = true := by
  rw [Turn.fits, moves.onlyRequests.info]
  exact fits

theorem moves_askForUpdate (session : Session) : Moves session session.askForUpdate :=
  .tune ⟨rfl, rfl, id, rfl, rfl, rfl, fun _ => id, rfl⟩

theorem moves_askForUpdateIf (session : Session) (condition : Bool) :
    Moves session (session.askForUpdateIf condition) := by
  rw [askForUpdateIf]
  split
  · exact moves_askForUpdate session
  · exact .refl

theorem moves_cancelOutstanding (session : Session) (now : Instant) (req : Nat) :
    Moves session (session.cancelOutstanding now req) := by
  by_cases member : req ∈ session.conn.outstandingRequests
  · exact .single (.cancel now member)
  rw [cancelOutstanding, if_neg member]
  exact .refl

theorem moves_cancelAll (now : Instant) :
    ∀ (reqs : List Nat) (session : Session), Moves session (session.cancelAll now reqs)
  | [], _ => .refl
  | req :: reqs, session => (moves_cancelOutstanding session now req).trans (moves_cancelAll now reqs _)

theorem tuned_forgetCancel (req : Nat) (conn : Conn) : conn.Tuned (forgetCancel req conn) where
  remoteAddr := rfl
  dropped := rfl
  handleClosed := id
  peerSentHaveAll := rfl
  pieces := rfl
  outstandingRequests := rfl
  expected := by
    intro other member
    rw [forgetCancel] at member
    split at member
    · exact member
    · exact (AList.mem_erase.mp member).2
  writing := rfl

theorem moves_expireCancels (session : Session) (turn : Turn) :
    Moves session (session.expireCancels turn) := by
  refine .tune ?_
  generalize expiredCancels session.conn turn = expired
  generalize session.conn = conn
  induction expired generalizing conn with
  | nil => exact .refl conn
  | cons req expired ih => exact (tuned_forgetCancel req conn).trans (ih _)

theorem moves_releaseStale (session : Session) (now : Instant) (stale : List Nat) :
    Moves session (session.releaseStale now stale) := by
  rw [releaseStale]
  split
  · exact .refl
  have lowered : Moves session (session.onConn (lowerPeak stale.length)) :=
    .tune ⟨rfl, rfl, id, rfl, rfl, rfl, fun _ => id, rfl⟩
  exact lowered.trans ((moves_cancelAll now _ _).trans (moves_askForUpdate _))

theorem moves_expireStaleRequests (session : Session) (turn : Turn) :
    Moves session (session.expireStaleRequests turn) :=
  (moves_expireCancels session turn).trans (moves_releaseStale _ _ _)

theorem moves_takeBlocks (now : Instant) : ∀ (picks : List Picked) (added : Nat) (session : Session),
      session.conn.handleClosed = false -> (∀ picked ∈ picks, Exists fun info =>
        session.torrent.info = some info /\ picked.req < blockCount info) ->
      Moves session (takeBlocks now picks added session).2
  | [], _, _, _, _ => .refl
  | picked :: rest, added, session, isOpen, fits => by
      have later : ∀ other ∈ rest, Exists fun info =>
          session.torrent.info = some info /\ other.req < blockCount info :=
        fun other member => fits other (mem_cons_of_mem _ member)
      rw [takeBlocks]
      split
      · exact moves_takeBlocks now rest added session isOpen later
      rename_i fresh
      have may : session.MayRequest picked := ⟨isOpen, fits picked mem_cons_self, fresh⟩
      have sameInfo := (onlyRequests_claimPicked session now picked).info
      have sameConn := claimPicked_conn session now picked
      split
      next won =>
        split
        · refine .trans (.single (.requested now may won)) ?_
          refine moves_takeBlocks now rest _ _ ?_ ?_
          · rw [sendRequest_handleClosed, sameConn]
            exact isOpen
          · rw [sendRequest_torrent, sameInfo]
            exact later
        · exact .single (.unsent now may won)
      next lost =>
        refine .trans (.single (.refused now may (by simpa using lost))) ?_
        refine moves_takeBlocks now rest _ _ ?_ ?_
        · rw [sameConn]
          exact isOpen
        · rw [sameInfo]
          exact later

theorem cancelOutstanding_handleClosed (session : Session) (now : Instant) (req : Nat) :
    (session.cancelOutstanding now req).conn.handleClosed = session.conn.handleClosed := by
  rw [cancelOutstanding]
  split
  · simp only [onTorrent, onConn, noteCancel, Conn.send]
    split <;> rfl
  · rfl

theorem cancelAll_handleClosed (now : Instant) : ∀ (reqs : List Nat) (session : Session),
      (session.cancelAll now reqs).conn.handleClosed = session.conn.handleClosed
  | [], _ => rfl
  | req :: reqs, session =>
    (cancelAll_handleClosed now reqs _).trans (cancelOutstanding_handleClosed session now req)

section
variable (session : Session)

theorem fillHaveAll_handleClosed : session.fillHaveAll.conn.handleClosed = session.conn.handleClosed := by
  simp only [fillHaveAll, onConn]
  split <;> rfl

variable (turn : Turn)

theorem moves_prepareRequests : Moves session (session.prepareRequests turn) := by
  have begun : Moves (session.cancelAll turn.now session.displaced)
      ((session.cancelAll turn.now session.displaced).onConn (beginUpdate turn)) :=
    .tune ⟨rfl, rfl, id, rfl, rfl, rfl, fun _ => id, rfl⟩
  exact (moves_cancelAll turn.now _ session).trans (begun.trans (.single .fill))

variable (fits : turn.fits session.torrent = true)
include fits

theorem moves_fillQueue (isOpen : session.conn.handleClosed = false) :
    Moves session (session.fillQueue turn) := by
  have proposals : ∀ picked ∈ roomFor session.conn turn.pick,
      Exists fun info => session.torrent.info = some info /\ picked.req < blockCount info := by
    intro picked member
    have inside := all_eq_true.mp fits picked (mem_of_mem_take member)
    cases known : session.torrent.info with
    | none => simp [known] at inside
    | some info => exact ⟨info, rfl, by simpa [known] using inside⟩
  have moved := moves_takeBlocks turn.now _ 0 session isOpen proposals
  rw [fillQueue]
  generalize takeBlocks turn.now (roomFor session.conn turn.pick) 0 session = taken at moved ⊢
  exact moved.trans (.tune ⟨rfl, rfl, id, rfl, rfl, rfl, fun _ => id, rfl⟩)

theorem moves_updateRequests : Moves session (session.updateRequests turn) := by
  rw [updateRequests]
  split
  · exact .refl
  rename_i allowed
  simp only [Bool.or_eq_true, not_or, Bool.not_eq_true] at allowed
  refine (moves_prepareRequests session turn).trans (moves_fillQueue _ turn ?_ ?_)
  · exact (moves_prepareRequests session turn).fits fits
  · rw [prepareRequests, fillHaveAll_handleClosed]
    exact (cancelAll_handleClosed ..).trans allowed.2

theorem moves_afterMessage : Moves session (session.afterMessage turn) := by
  rw [afterMessage]
  split
  · exact moves_updateRequests session turn fits
  · exact .refl

/-! ## Handlers as moves -/

theorem moves_onConn_updateRequests {change : Conn -> Conn}
    (tuned : session.conn.Tuned (change session.conn)) :
    Moves session ((session.onConn change).askForUpdate.updateRequests turn) := by
  have asked := (Moves.tune tuned).trans (moves_askForUpdate _)
  exact asked.trans (moves_updateRequests _ turn fits)

omit fits in
theorem moves_handleChoke : Moves session (session.handleChoke turn) := by
  have choked : Moves session (session.onConn (setChoking true)) :=
    .tune ⟨rfl, rfl, id, rfl, rfl, rfl, fun _ => id, rfl⟩
  exact choked.trans ((moves_cancelAll turn.now _ _).trans (moves_askForUpdate _))

theorem moves_handleReject (index start : Nat) : Moves session (session.handleReject turn index start) := by
  rw [handleReject]
  generalize reqIndexFromPieceAndOffset index start session.torrent.pieceLength = req
  generalize (if req ∈ session.conn.outstandingRequests then 1 else 0) = lost
  have lowered : Moves session (session.onConn (lowerPeak lost)) :=
    .tune ⟨rfl, rfl, id, rfl, rfl, rfl, fun _ => id, rfl⟩
  have asked := (lowered.trans (.single (.relinquished req))).trans (moves_askForUpdate _)
  exact asked.trans (moves_updateRequests _ turn (asked.fits fits))

end

theorem moves_handleExtended (fits : turn.fits session.torrent = true)
    (handled : session.handleExtended turn = some after) : Moves session after := by
  rw [handleExtended] at handled
  split at handled
  · cases handled
  · cases handled
    exact .refl
  · cases handled
    exact (moves_askForUpdate session).trans (moves_updateRequests _ turn fits)
  · cases handled
    exact moves_onConn_updateRequests session turn fits ⟨rfl, rfl, id, rfl, rfl, rfl, fun _ => id, rfl⟩

def announce (session : Session) : Message -> Session
  | .have index => session.announcePiece index.toNat
  | .bitfield bits => session.announceBitfield bits
  | .haveNone => session.announceBitfield []
  | .haveAll => session.announceHaveAll
  | .keepalive | .choke | .unchoke | .interested | .notInterested | .request .. | .piece ..
  | .cancel .. | .port _ | .suggest _ | .reject .. | .allowedFast _ | .extended ..
  | .hashRequest _ | .hashes .. | .hashReject _ => session

/-- A change of what the peer is known to have, and of the counters. -/
structure Announces (before after : Session) : Prop where
  conn : after.conn = { before.conn with
    pieces := after.conn.pieces, peerSentHaveAll := after.conn.peerSentHaveAll }
  torrent : after.torrent = { before.torrent with
    pieceAvailability := after.torrent.pieceAvailability
    haveAllPeers := after.torrent.haveAllPeers }

theorem announces_announce (session : Session) (message : Message) :
    Announces session (session.announce message) := by
  have bitfield : ∀ bits, Announces session (session.announceBitfield bits) := by
    intro bits
    refine ⟨rfl, ?_⟩
    simp only [announceBitfield, onConn, onTorrent, Torrent.noteAvailability, uncountHaveAll]
    split <;> rfl
  cases message <;> simp only [announce]
  case «have» =>
    rw [announcePiece]
    split <;> exact ⟨rfl, rfl⟩
  case bitfield bits => exact bitfield bits
  case haveNone => exact bitfield []
  case haveAll =>
    rw [announceHaveAll]
    split <;> exact ⟨rfl, rfl⟩
  all_goals exact ⟨rfl, rfl⟩

theorem announce_info (session : Session) (message : Message) :
    (session.announce message).torrent.info = session.torrent.info := by
  rw [(announces_announce session message).torrent]

theorem onMessage_moves {message : Message} (fits : turn.fits session.torrent = true)
    (handled : session.onMessage turn message = some after) : Moves (session.announce message) after := by
  have announcedFits : turn.fits (session.announce message).torrent = true := by
    rw [Turn.fits, announce_info]
    exact fits
  -- It suffices to reach the point where `afterMessage` takes over.
  have finish : ∀ middle : Session, Moves (session.announce message) middle ->
      Moves (session.announce message) (middle.afterMessage turn) :=
    fun middle moves => moves.trans (moves_afterMessage middle turn (moves.fits announcedFits))
  have bitfield : ∀ bits, Moves (session.announceBitfield bits) (session.handleBitfield turn bits) := by
    intro bits
    exact ((moves_askForUpdateIf _ _).trans (moves_cancelAll turn.now _ _)).trans (moves_askForUpdateIf _ _)
  cases message <;> simp only [onMessage, Option.some.injEq] at handled
  case keepalive | interested | notInterested | cancel | port | hashRequest | hashes | hashReject =>
    subst handled
    exact finish session .refl
  case choke =>
    subst handled
    exact finish _ (moves_handleChoke session turn)
  case «have» =>
    subst handled
    exact finish _ (moves_askForUpdateIf _ _)
  case bitfield bits =>
    subst handled
    exact finish _ (bitfield bits)
  case haveNone =>
    subst handled
    exact finish _ (bitfield [])
  case request =>
    split at handled
    · cases handled
    cases handled
    exact finish session .refl
  case piece => cases handled
  case suggest =>
    subst handled
    exact finish _ (moves_askForUpdate session)
  case haveAll =>
    subst handled
    refine finish _ ?_
    rw [handleHaveAll, announce]
    split
    next already =>
      rw [announceHaveAll, if_pos already]
      exact .refl
    · exact (moves_askForUpdate _).trans (moves_updateRequests _ turn announcedFits)
  case reject =>
    subst handled
    exact finish _ (moves_handleReject session turn fits _ _)
  case unchoke | allowedFast =>
    subst handled
    exact finish _ (moves_onConn_updateRequests session turn fits
      ⟨rfl, rfl, id, rfl, rfl, rfl, fun _ => id, rfl⟩)
  case extended =>
    obtain ⟨middle, extended, rfl⟩ := map_eq_some_iff.mp handled
    exact finish middle (moves_handleExtended fits extended)

variable (session : Session)
variable (turn : Turn) (fits : turn.fits session.torrent = true)
include fits

theorem moves_onWake : Moves session (session.onWake turn) := by
  rw [onWake]
  split
  · exact moves_cancelAll turn.now _ session
  have expired := moves_expireStaleRequests session turn
  refine expired.trans ?_
  have woken : Moves (session.expireStaleRequests turn)
      ((session.expireStaleRequests turn).onConn takeUpdateRequest) :=
    .tune ⟨rfl, rfl, id, rfl, rfl, rfl, fun _ => id, rfl⟩
  rw [refillOnWake]
  split
  · exact woken.trans (moves_updateRequests _ turn (expired.fits fits))
  · exact woken

theorem moves_wasteChunk (req : Nat) (refill : Bool) :
    Moves session (((session.wasteChunk req).askForUpdateIf refill).afterMessage turn) := by
  have asked := (Moves.single (Move.wasted req)).trans (moves_askForUpdateIf (session.wasteChunk req) refill)
  exact asked.trans (moves_afterMessage _ turn (asked.fits fits))

/-- A block that arrives is ignored, reserved for writing, or wasted. -/
theorem handlePieceBegin_cases (index start : Nat) (data : Bytes) {req : Nat}
    (named : req = reqIndexFromPieceAndOffset index start session.torrent.pieceLength) :
    Moves session (session.handlePieceBegin turn index start data) \/
    (expects session.conn req = true /\ ((session.receiveChunk req).torrent.beginChunkWrite req).1 = true /\
      session.handlePieceBegin turn index start data =
        session.startWrite { req := req, index := index, start := start, data := data }
          ((session.receiveChunk req).torrent.beginChunkWrite req).2) := by
  subst named
  simp only [handlePieceBegin]
  split
  next expected =>
    split
    next reserved => exact .inr ⟨expected, reserved, rfl⟩
    · left
      exact moves_wasteChunk session turn fits _ _
  · exact .inl (moves_afterMessage session turn fits)

omit fits in
theorem endWrite_frame (write : ChunkWrite) (ok : Bool) :
    (session.endWrite turn write ok).torrent = { session.torrent with
      pieces := (session.endWrite turn write ok).torrent.pieces
      blocks := if ok then (session.torrent.blocks.endWrite write.req).clear write.req
        else (session.torrent.blocks.endWrite write.req).release write.req session.conn.key
      dirtyChunks := if ok then session.torrent.dirtyChunks.insert write.req
        else session.torrent.dirtyChunks } := by
  cases ok with
  | false => rfl
  | true =>
    simp only [endWrite, onTorrent, onConn, if_true, acceptChunk, Torrent.queuePieceHash,
      Torrent.finishChunkWrite, Torrent.markChunkDirty]
    split_ifs <;> rfl

omit fits in
theorem endWrite_info (write : ChunkWrite) (ok : Bool) :
    (session.endWrite turn write ok).torrent.info = session.torrent.info := by
  rw [endWrite_frame]

theorem handlePieceFinish_moves (write : ChunkWrite) (ok : Bool) :
    Moves (session.endWrite turn write ok) (session.handlePieceFinish turn write ok) := by
  have endedFits : turn.fits (session.endWrite turn write ok).torrent = true := by
    rw [Turn.fits, endWrite_info]
    exact fits
  have finish : ∀ middle : Session, Moves (session.endWrite turn write ok) middle ->
      Moves (session.endWrite turn write ok) (middle.afterMessage turn) :=
    fun middle moves => moves.trans (moves_afterMessage middle turn (moves.fits endedFits))
  refine finish _ ?_
  split
  · have useful : Moves (session.endWrite turn write ok)
        ((session.endWrite turn write ok).onConn (noteUseful turn.now)) :=
      .tune ⟨rfl, rfl, id, rfl, rfl, rfl, fun _ => id, rfl⟩
    exact useful.trans (moves_askForUpdateIf _ _)
  · exact moves_askForUpdate _

end Session

namespace Torrent

theorem applyHashResult_frame (torrent : Torrent) (piece : Nat) (valid : Bool) :
    torrent.applyHashResult piece valid = { torrent with
      pieces := (torrent.applyHashResult piece valid).pieces
      dirtyChunks := (torrent.applyHashResult piece valid).dirtyChunks } := by
  rw [applyHashResult]
  split
  · rfl
  split
  · rfl
  · split <;> rfl

theorem refreshPieceCompletion_frame (torrent : Torrent) (piece : Nat) (complete readable : Bool) :
    torrent.refreshPieceCompletion piece complete readable = { torrent with
      pieces := (torrent.refreshPieceCompletion piece complete readable).pieces
      dirtyChunks := (torrent.refreshPieceCompletion piece complete readable).dirtyChunks } := by
  rw [refreshPieceCompletion]
  split
  · rfl
  dsimp only
  split <;> rfl

end Torrent

/-! ## Steps of the swarm -/

/-- What the handler at position `i` does in a step. -/
inductive Session.Acts (i : Nat) : Event -> Session -> Session -> Prop
  | message {turn : Turn} {message : Message} {session after : Session}
      (moves : Moves (session.announce message) after) :
      Acts i (.message i turn message) session after
  | ignored {turn : Turn} {index start : UInt32} {data : Bytes} {session after : Session}
      (moves : Moves session after) : Acts i (.pieceBegin i turn index start data) session after
  | reserved {turn : Turn} {index start : UInt32} {data : Bytes} {session : Session} {req : Nat}
      (resting : session.conn.writing = none)
      (named : req = reqIndexFromPieceAndOffset index.toNat start.toNat session.torrent.pieceLength)
      (expected : expects session.conn req = true)
      (won : ((session.receiveChunk req).torrent.beginChunkWrite req).1 = true) :
      Acts i (.pieceBegin i turn index start data) session (session.startWrite
          { req := req, index := index.toNat, start := start.toNat, data := data }
          ((session.receiveChunk req).torrent.beginChunkWrite req).2)
  | stored {storageOk : Bool} {write : ChunkWrite} {session : Session}
      (writing : session.conn.writing = some write) (pending : write.stored = none) :
      Acts i (.pieceStore i storageOk) session (session.handlePieceStore write storageOk)
  | finished {turn : Turn} {write : ChunkWrite} {ok : Bool} {session after : Session}
      (writing : session.conn.writing = some write) (answered : write.stored = some ok)
      (moves : Moves (session.endWrite turn write ok) after) :
      Acts i (.pieceFinish i turn) session after
  | woken {turn : Turn} {session after : Session} (moves : Moves session after) :
      Acts i (.wake i turn) session after
  | flagged {event : Event} {session after : Session}
      (flag : event = .closeHandle i ∨ event = .markRefocus i ∨ event = .nudge i)
      (moves : Moves session after) : Acts i event session after

/-- Everything a step can do. -/
inductive Swarm.Change (swarm : Swarm) : Event -> Swarm -> Prop
  | attach {remoteAddr : SocketAddr} {peerId : Option Bytes} {supportsFast : Bool} :
      Change swarm (.attach remoteAddr peerId supportsFast)
        { swarm with
          conns := swarm.conns ++
            [{ remoteAddr := remoteAddr, peerId := peerId, supportsFast := supportsFast }] }
  | act {i : Nat} {event : Event} {conn : Conn} {session : Session}
      (found : swarm.conns[i]? = some conn)
      (acts : Session.Acts i event { torrent := swarm.torrent, conn := conn } session) :
      Change swarm event { torrent := session.torrent, conns := swarm.conns.set i session.conn }
  | closed {i : Nat} {conn : Conn} (found : swarm.conns[i]? = some conn)
      (resting : conn.writing = none) :
      Change swarm (.closed i)
        { torrent := Session.onClosed { torrent := swarm.torrent, conn := conn }
          conns := (swarm.conns.eraseIdx i).map (retireConnection conn.remoteAddr) }
  | dropConn {addr : SocketAddr} : Change swarm (.dropConn addr)
        { torrent := swarm.torrent.forgetPeer (peerKeyFromAddr addr)
          conns := swarm.conns.map (dropRegistered addr) }
  | setInfo {info : Info} {complete : List Nat} {downloadAll : Bool}
      (unknown : swarm.torrent.info = none) :
      Change swarm (.setInfo info complete downloadAll) (swarm.onTorrent (fun torrent =>
          torrent.setInfo info (fun piece => decide (piece ∈ complete)) downloadAll
            (swarm.conns.map Conn.pieces)))
  | hashResult {piece : Nat} {valid : Bool} : Change swarm (.hashResult piece valid)
        (swarm.onTorrent (fun torrent => torrent.applyHashResult piece valid))
  | refreshPiece {piece : Nat} {complete readable : Bool} :
      Change swarm (.refreshPiece piece complete readable)
        (swarm.onTorrent (fun torrent => torrent.refreshPieceCompletion piece complete readable))
  | setPriority {piece : Nat} {priority : PiecePriority} :
      Change swarm (.setPriority piece priority) (swarm.onTorrent (fun torrent =>
          torrent.modifyPiece piece (fun entry => { entry with priority := priority })))
  | openSeekWindow {now : Instant} {copies : Nat} : Change swarm (.openSeekWindow now copies)
        (swarm.onTorrent (fun torrent => { torrent with seekHedge := some (now, copies) }))
  | setDownloadDisallowed {disallowed : Bool} : Change swarm (.setDownloadDisallowed disallowed)
        (swarm.onTorrent (fun torrent =>
          { torrent with dataDownloadDisallowed := disallowed }))
  | closeTorrent : Change swarm .closeTorrent
        (swarm.onTorrent (fun torrent => { torrent with closed := true }))

namespace Swarm

variable {handler : Session -> Option Session}

theorem handle_eq_some {swarm after : Swarm} {i : Nat} (taken : swarm.handle i handler = some after) :
    Exists fun conn => Exists fun session => swarm.conns[i]? = some conn /\ handler ⟨swarm.torrent, conn⟩ =
    some session /\ after = ⟨session.torrent, swarm.conns.set i session.conn⟩ := by
  rw [handle] at taken
  split at taken
  · cases taken
  next conn found =>
    obtain ⟨session, handled, equal⟩ := map_eq_some_iff.mp taken
    exact ⟨conn, session, found, handled, equal.symm⟩

theorem idle_eq_some (taken : idle turn handler session = some after) :
    session.conn.writing = none /\ turn.fits session.torrent = true /\ handler session = some after := by
  rw [idle] at taken
  split at taken
  next both =>
    obtain ⟨resting, fits⟩ := Bool.and_eq_true_iff.mp both
    exact ⟨isNone_iff_eq_none.mp resting, fits, taken⟩
  · cases taken

theorem change_of_handle {swarm after : Swarm} {i : Nat} {event : Event}
    (taken : swarm.handle i handler = some after)
    (acts : ∀ session result, handler session = some result ->
      Session.Acts i event session result) : Change swarm event after := by
  obtain ⟨conn, session, found, handled, rfl⟩ := handle_eq_some taken
  exact .act found (acts _ _ handled)

theorem step_change {swarm after : Swarm} {event : Event}
    (taken : swarm.step event = some after) : Change swarm event after := by
  cases event with
  | attach =>
    simp only [step] at taken
    split at taken
    · cases taken
    cases taken
    exact .attach
  | message =>
    refine change_of_handle taken fun session result handled => ?_
    obtain ⟨_, fits, handled⟩ := idle_eq_some handled
    exact .message (Session.onMessage_moves fits handled)
  | pieceBegin i turn index start data =>
    refine change_of_handle taken fun session result handled => ?_
    obtain ⟨resting, fits, ⟨⟩⟩ := idle_eq_some handled
    rcases session.handlePieceBegin_cases turn fits index.toNat start.toNat data rfl with
      moves | ⟨expected, won, equal⟩
    · exact .ignored moves
    · rw [equal]
      exact .reserved resting rfl expected won
  | pieceStore =>
    rw [step] at taken
    refine change_of_handle taken fun session result handled => ?_
    split at handled
    next write writing =>
      split at handled
      next pending =>
        cases handled
        exact .stored writing (isNone_iff_eq_none.mp pending)
      · cases handled
    · cases handled
  | pieceFinish i turn =>
    rw [step] at taken
    refine change_of_handle taken fun session result handled => ?_
    split at handled
    next write writing =>
      split at handled
      next fits =>
        obtain ⟨ok, answered, rfl⟩ := map_eq_some_iff.mp handled
        exact .finished writing answered (session.handlePieceFinish_moves turn fits write ok)
      · cases handled
    · cases handled
  | wake i turn =>
    refine change_of_handle taken fun session result handled => ?_
    obtain ⟨_, fits, ⟨⟩⟩ := idle_eq_some handled
    exact .woken (session.moves_onWake turn fits)
  | closed =>
    simp only [step] at taken
    split at taken
    · cases taken
    rename_i conn found
    split at taken
    next resting =>
      cases taken
      exact .closed found (isNone_iff_eq_none.mp resting)
    · cases taken
  | closeHandle =>
    rw [step] at taken
    refine change_of_handle taken fun session result handled => ?_
    cases handled
    exact .flagged (Or.inl rfl) (.tune ⟨rfl, rfl, fun _ => rfl, rfl, rfl, rfl, fun _ => id, rfl⟩)
  | dropConn =>
    cases taken
    exact .dropConn
  | markRefocus =>
    rw [step] at taken
    refine change_of_handle taken fun session result handled => ?_
    cases handled
    exact .flagged (Or.inr (Or.inl rfl)) (.tune ⟨rfl, rfl, id, rfl, rfl, rfl, fun _ => id, rfl⟩)
  | nudge =>
    rw [step] at taken
    refine change_of_handle taken fun session result handled => ?_
    cases handled
    exact .flagged (Or.inr (Or.inr rfl)) (.tune ⟨rfl, rfl, id, rfl, rfl, rfl, fun _ => id, rfl⟩)
  | setInfo =>
    simp only [step] at taken
    split at taken
    next unknown =>
      cases taken
      exact .setInfo (isNone_iff_eq_none.mp unknown)
    · cases taken
  | hashResult =>
    cases taken
    exact .hashResult
  | refreshPiece =>
    cases taken
    exact .refreshPiece
  | setPriority =>
    cases taken
    exact .setPriority
  | openSeekWindow =>
    cases taken
    exact .openSeekWindow
  | setDownloadDisallowed =>
    cases taken
    exact .setDownloadDisallowed
  | closeTorrent =>
    cases taken
    exact .closeTorrent

end Swarm
end TorrentPlayer.Core
