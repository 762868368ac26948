import TorrentPlayer.Core.BlockTable
import TorrentPlayer.Core.Geometry
import Mathlib.Data.Finset.Basic

namespace TorrentPlayer.Core

open Library Option List

/-!
# What the connections of a torrent share

The state that every connection handler of one torrent reads and changes: the
info once it is known, the piece entries, the table of blocks on their way, the
received blocks, and the counters of how many peers have a piece.

Two facts of the code matter later.  The per-piece counters exist only once the
info is known, and a change to a counter that does not exist is dropped.  A
peer that has every piece is counted in `haveAllPeers` instead, from the start.
-/

/-- How much a piece is wanted, in increasing order. -/
inductive PiecePriority where
  | none
  | normal
  | high
  | readahead
  | next
  | now
  deriving DecidableEq

structure PieceEntry where
  priority : PiecePriority := .none
  /-- What was asked for the piece, readers apart. -/
  basePriority : PiecePriority := .none
  complete : Bool := false
  checking : Bool := false
  /-- Some block of the piece was received. -/
  partly : Bool := false

structure Torrent where
  info : Option Info := none
  pieces : List PieceEntry := []
  blocks : BlockTable := BlockTable.new
  dirtyChunks : ChunkBits := ChunkBits.new
  pieceAvailability : Option (List Int) := none
  haveAllPeers : Int := 0
  /-- When the last seek opened the copy window, and the copies left in it. -/
  seekHedge : Option (Instant × Nat) := none
  closed : Bool := false
  dataDownloadDisallowed : Bool := false

namespace Torrent

variable (torrent : Torrent) (req : Nat) (peer : PeerKey) (piece : Nat)

def haveInfo : Bool :=
  torrent.info.isSome

def numPieces : Nat :=
  torrent.pieces.length

def pieceLength (torrent : Torrent) : Nat :=
  torrent.info.elim 0 Info.pieceLength

def totalLength (torrent : Torrent) : Nat :=
  torrent.info.elim 0 Info.totalLength

def pieceComplete : Bool :=
  torrent.pieces[piece]?.any PieceEntry.complete

def piecePriority : PiecePriority :=
  torrent.pieces[piece]?.elim .none PieceEntry.priority

def wanted : Bool :=
  torrent.piecePriority piece != .none && !torrent.pieceComplete piece

def blockCoord : BlockCoord :=
  blockCoordFromReqIndex req torrent.pieceLength torrent.totalLength

def modifyPiece (change : PieceEntry -> PieceEntry) : Torrent :=
  { torrent with pieces := torrent.pieces.modify piece change }

/-- Add `delta` to the counters of a set of pieces. -/
def noteAvailability (pieces : Finset Nat) (delta : Int) : Torrent :=
  { torrent with
    pieceAvailability := torrent.pieceAvailability.map (fun counts =>
      counts.mapIdx (fun piece count => if piece ∈ pieces then count + delta else count)) }

def noteHaveAllAvailability (delta : Int) : Torrent :=
  { torrent with haveAllPeers := torrent.haveAllPeers + delta }

/-- Size the counters, counting what the connected peers announced before. -/
def initAvailability (numPieces : Nat) (live : List (Finset Nat)) : Torrent :=
  let counts := torrent.pieceAvailability.getD (List.replicate numPieces 0)
  live.foldl (fun torrent pieces => torrent.noteAvailability pieces 1)
    { torrent with pieceAvailability := some counts }

/-- The info arrives.  `complete` says which pieces the storage already has. -/
def setInfo (info : Info) (complete : Nat -> Bool) (downloadAll : Bool)
    (live : List (Finset Nat)) : Torrent :=
  let priority := if downloadAll then PiecePriority.normal else .none
  let sized : Torrent :=
    { torrent with
      pieces := (List.range info.numPieces).map (fun piece =>
        { priority := priority, basePriority := priority, complete := complete piece })
      dirtyChunks := torrent.dirtyChunks.init (blockCount info)
      blocks := torrent.blocks.init (blockCount info) }
  { sized.initAvailability info.numPieces live with info := some info }

def requestingPeer : Option PeerKey :=
  (torrent.blocks.owner req).map Prod.fst

def requestWhen : Option Instant :=
  (torrent.blocks.owner req).map Prod.snd

def hedgePeer : Option PeerKey :=
  torrent.blocks.second req

def withBlocks (blocks : BlockTable) : Torrent :=
  { torrent with blocks := blocks }

def clearAssignment : Torrent :=
  torrent.withBlocks (torrent.blocks.clearOwner req)

def claimRequest (asked : Instant) : Bool × Torrent :=
  if torrent.blocks.isWriting req || torrent.dirtyChunks.contains req then (false, torrent)
  else
    ((torrent.blocks.claim req peer asked).1, torrent.withBlocks (torrent.blocks.claim req peer asked).2)

def releaseRequest : Torrent :=
  torrent.withBlocks (torrent.blocks.release req peer)

def claimHedge : Bool × Torrent :=
  if torrent.dirtyChunks.contains req then (false, torrent)
  else
    ((torrent.blocks.claimSecond req peer).1, torrent.withBlocks (torrent.blocks.claimSecond req peer).2)

def clearHedge : Torrent :=
  torrent.withBlocks (torrent.blocks.clearSecond req)

def releaseHedge : Torrent :=
  torrent.withBlocks (torrent.blocks.releaseSecond req peer)

def onChunkReceived : Torrent :=
  torrent.withBlocks (torrent.blocks.clear req)

def forgetPeer (torrent : Torrent) (peer : PeerKey) : Torrent :=
  torrent.withBlocks (torrent.blocks.forgetPeer peer)

/-- Requests that a peer no longer needs to answer: the block arrived, or the
peer does not hold it any more. -/
def displacedRequests (requests : List Nat) (peer : PeerKey) : List Nat :=
  requests.filter (fun req =>
    torrent.dirtyChunks.contains req || !torrent.blocks.holds req peer)

/-- How long after a seek the eager copies may be spent, in milliseconds. -/
def seekHedgeWindow : Nat :=
  2000

def takeSeekHedge (now : Instant) : Bool × Torrent :=
  match torrent.seekHedge with
  | some (opened, left + 1) =>
    if now - opened < seekHedgeWindow then
      (true, { torrent with seekHedge := some (opened, left) })
    else (false, torrent)
  | _ => (false, torrent)

def refundSeekHedge : Torrent :=
  { torrent with seekHedge := torrent.seekHedge.map (fun hedge => (hedge.1, hedge.2 + 1)) }

/-- Reserve a block for writing.  Refused when the piece is complete or being
hashed, and when the block was received or is being written.  The code looks at
the received bit a second time, for a writer that finished in between. -/
def beginChunkWrite : Bool × Torrent :=
  let settled := torrent.info.isSome &&
    torrent.pieces[(torrent.blockCoord req).piece]?.any (fun p => p.complete || p.checking)
  if settled then (false, torrent)
  else if torrent.dirtyChunks.contains req then (false, torrent)
  else
    ((torrent.blocks.beginWrite req).1, torrent.withBlocks (torrent.blocks.beginWrite req).2)

/-- The reason a received range cannot be stored, if there is one. -/
def chunkStorageError (start length : Nat) : Option String :=
  match torrent.info with
  | none => some "info not available yet"
  | some info =>
    if info.numPieces <= piece || info.pieceLen piece < start + length then
      some "invalid piece range"
    else none

def markChunkDirty : Torrent :=
  let marked := { torrent with dirtyChunks := torrent.dirtyChunks.insert req }
  if torrent.info.isSome then
    marked.modifyPiece (torrent.blockCoord req).piece (fun p => { p with partly := true })
  else marked

/-- End a write.  The block becomes readable first, then the reservation ends. -/
def finishChunkWrite (written : Bool) : Torrent :=
  let marked := if written then torrent.markChunkDirty req else torrent
  marked.withBlocks (marked.blocks.endWrite req)

def pieceRange : Nat × Nat :=
  pieceReqIndexRange piece torrent.pieceLength torrent.totalLength

def pieceAllDirty : Bool :=
  torrent.info.isSome &&
    torrent.dirtyChunks.allInRange (torrent.pieceRange piece).1 (torrent.pieceRange piece).2

/-- Start hashing a piece.  `queued` says whether the worker pool took the job. -/
def queuePieceHash (queued : Bool) : Torrent :=
  if torrent.info.isSome && queued then
    torrent.modifyPiece piece (fun p =>
      if p.checking || p.complete then p else { p with checking := true })
  else torrent

def removeDirtyRange : Torrent :=
  { torrent with
    dirtyChunks := torrent.dirtyChunks.removeRange
      (torrent.pieceRange piece).1 (torrent.pieceRange piece).2 }

/-- A hash job ends.  A piece that is not valid loses its received blocks. -/
def applyHashResult (valid : Bool) : Torrent :=
  match torrent.info with
  | none => torrent
  | some info =>
    if info.numPieces <= piece then torrent
    else
      let entered := torrent.modifyPiece piece (fun p =>
        { p with checking := false, complete := valid, partly := p.partly && valid })
      if valid then entered else entered.removeDirtyRange piece

/-- Compare a piece with its storage.  `complete` is what the storage says, and
`readable` whether its first byte can be read.  A piece that was complete or
partly received and is gone loses its received blocks. -/
def refreshPieceCompletion (complete readable : Bool) : Torrent :=
  if torrent.info.isNone then torrent else
  let entry := torrent.pieces[piece]?
  let hadLocalData := entry.any (fun p => p.complete || p.partly) ||
    torrent.dirtyChunks.anyInRange (torrent.pieceRange piece).1 (torrent.pieceRange piece).2
  let storageLost := !complete && hadLocalData && !readable
  let evicted := entry.any (fun p => (p.complete && !complete) || storageLost)
  let entered := torrent.modifyPiece piece (fun p =>
    { p with
      complete := complete
      partly := p.partly && !evicted
      checking := p.checking && !evicted })
  if evicted then entered.removeDirtyRange piece else entered

/-! ## What the operations change -/

/-- Sizing the counters changes the counters alone. -/
theorem initAvailability_frame (numPieces : Nat) (live : List (Finset Nat)) :
    torrent.initAvailability numPieces live = { torrent with
      pieceAvailability := (torrent.initAvailability numPieces live).pieceAvailability } := by
  rw [initAvailability]
  generalize counted : Torrent.mk torrent.info torrent.pieces torrent.blocks torrent.dirtyChunks
    (some (torrent.pieceAvailability.getD (List.replicate numPieces 0))) torrent.haveAllPeers
    torrent.seekHedge torrent.closed torrent.dataDownloadDisallowed = start
  have same : start = { torrent with pieceAvailability := start.pieceAvailability } := by rw [<- counted]
  clear counted
  induction live generalizing start with
  | nil => exact same
  | cons pieces live ih =>
    apply ih
    rw [same]
    rfl

theorem setInfo_pieces (info : Info) (complete : Nat -> Bool)
    (downloadAll : Bool) (live : List (Finset Nat)) :
    (torrent.setInfo info complete downloadAll live).pieces = (List.range info.numPieces).map (fun piece =>
        { priority := if downloadAll then .normal else .none
          basePriority := if downloadAll then .normal else .none
          complete := complete piece }) := by
  rw [setInfo, initAvailability_frame]

theorem setInfo_dirtyChunks (info : Info) (complete : Nat -> Bool) (downloadAll : Bool)
    (live : List (Finset Nat)) : (torrent.setInfo info complete downloadAll live).dirtyChunks =
    torrent.dirtyChunks.init (blockCount info) := by
  rw [setInfo, initAvailability_frame]

theorem setInfo_blocks (info : Info) (complete : Nat -> Bool)
    (downloadAll : Bool) (live : List (Finset Nat)) :
    (torrent.setInfo info complete downloadAll live).blocks = torrent.blocks.init (blockCount info) := by
  rw [setInfo, initAvailability_frame]

/-- Besides received bits and reservations, at most the entry of one piece
differs, by a change of the given kind. -/
structure Edits (piece : Nat) (kind : PieceEntry -> PieceEntry -> Prop)
    (before after : Torrent) : Prop where
  frame : after = { before with
    pieces := after.pieces
    dirtyChunks := after.dirtyChunks
    blocks := after.blocks }
  pieces : after.pieces = before.pieces ∨
    Exists fun change => after.pieces = before.pieces.modify piece change /\
      ∀ entry, kind entry (change entry)

namespace Edits

variable {piece : Nat} {kind : PieceEntry -> PieceEntry -> Prop} {before after : Torrent}
variable (edits : Edits piece kind before after)
include edits

theorem info : after.info = before.info := by
  rw [edits.frame]

theorem length : after.pieces.length = before.pieces.length := by
  rcases edits.pieces with same | ⟨change, modified, _⟩
  · rw [same]
  · rw [modified, length_modify]

theorem entry {k : Nat} {entry : PieceEntry} (found : after.pieces[k]? = some entry) :
    Exists fun old => before.pieces[k]? = some old /\ (entry = old \/ k = piece /\ kind old entry) := by
  rcases edits.pieces with same | ⟨change, modified, changes⟩
  · rw [same] at found
    exact ⟨entry, found, Or.inl rfl⟩
  rw [modified, getElem?_modify] at found
  rcases map_eq_some_iff.mp found with ⟨old, foundOld, changed⟩
  refine ⟨old, foundOld, ?_⟩
  by_cases here : piece = k
  · rw [if_pos here] at changed
    rw [<- changed]
    exact .inr ⟨here.symm, changes old⟩
  · rw [if_neg here] at changed
    exact .inl changed.symm

theorem entry_after {k : Nat} {old : PieceEntry} (found : before.pieces[k]? = some old) :
    Exists fun entry => after.pieces[k]? = some entry /\ (entry = old \/ k = piece /\ kind old entry) := by
  have inside : k < after.pieces.length := by
    rw [edits.length]
    exact (List.getElem?_eq_some_iff.mp found).1
  have there := getElem?_eq_getElem inside
  rcases edits.entry there with ⟨same, foundSame, kept⟩
  rw [found] at foundSame
  rw [<- Option.some.inj foundSame] at kept
  exact ⟨_, there, kept⟩

theorem pieceComplete_eq {k : Nat}
    (keeps : k = piece -> ∀ old entry, kind old entry -> entry.complete = old.complete) :
    after.pieceComplete k = before.pieceComplete k := by
  rw [pieceComplete, pieceComplete]
  cases found : before.pieces[k]? with
  | none =>
    have outside : after.pieces.length <= k := by
      rw [edits.length]
      exact getElem?_eq_none_iff.mp found
    rw [getElem?_eq_none outside]
  | some old =>
    rcases edits.entry_after found with ⟨entry, foundEntry, same | ⟨here, changed⟩⟩
    · rw [foundEntry, same]
    · rw [foundEntry, any_some, any_some, keeps here old entry changed]

end Edits

theorem finishChunkWrite_edits (written : Bool) :
    Edits (torrent.blockCoord req).piece (fun old entry => entry = { old with partly := true })
      torrent (torrent.finishChunkWrite req written) := by
  unfold finishChunkWrite markChunkDirty
  cases written with
  | false => exact ⟨rfl, Or.inl rfl⟩
  | true =>
    by_cases known : torrent.info.isSome = true
    · simp only [if_pos known]
      exact ⟨rfl, Or.inr ⟨_, rfl, fun _ => rfl⟩⟩
    · simp only [if_neg known]
      exact ⟨rfl, Or.inl rfl⟩

theorem finishChunkWrite_dirty (written : Bool) : (torrent.finishChunkWrite req written).dirtyChunks =
    if written then torrent.dirtyChunks.insert req else torrent.dirtyChunks := by
  unfold finishChunkWrite markChunkDirty
  cases written with
  | false => rfl
  | true =>
    by_cases known : torrent.info.isSome = true
    · simp only [if_pos known]
      rfl
    · simp only [if_neg known]
      rfl

theorem queuePieceHash_edits (queued : Bool) :
    Edits piece (fun old entry => entry = { old with checking := entry.checking }) torrent
      (torrent.queuePieceHash piece queued) := by
  unfold queuePieceHash
  split
  · refine ⟨rfl, Or.inr ⟨_, rfl, fun entry => ?_⟩⟩
    split <;> rfl
  · exact ⟨rfl, Or.inl rfl⟩

theorem applyHashResult_edits (valid : Bool) : Edits piece (fun old entry => entry =
        { old with checking := false, complete := valid, partly := old.partly && valid })
      torrent (torrent.applyHashResult piece valid) := by
  unfold applyHashResult
  split
  · exact ⟨rfl, Or.inl rfl⟩
  dsimp only
  split
  · exact ⟨rfl, Or.inl rfl⟩
  split
  · exact ⟨rfl, Or.inr ⟨_, rfl, fun _ => rfl⟩⟩
  · exact ⟨rfl, Or.inr ⟨_, rfl, fun _ => rfl⟩⟩

theorem refreshPieceCompletion_edits (complete readable : Bool) :
    Edits piece (fun old entry => entry = { old with
        complete := complete, partly := entry.partly, checking := entry.checking })
      torrent (torrent.refreshPieceCompletion piece complete readable) := by
  unfold refreshPieceCompletion
  split
  · exact ⟨rfl, Or.inl rfl⟩
  dsimp only
  split
  · exact ⟨rfl, Or.inr ⟨_, rfl, fun _ => rfl⟩⟩
  · exact ⟨rfl, Or.inr ⟨_, rfl, fun _ => rfl⟩⟩

end Torrent
end TorrentPlayer.Core
