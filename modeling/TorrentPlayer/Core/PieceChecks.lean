import TorrentPlayer.Core.Torrent
import TorrentPlayer.Library.Machine

namespace TorrentPlayer.Core

open Library Torrent Option List

/-!
# Checking received pieces

A piece is checked once its last block has arrived, and asked for again when
the check fails or its storage is gone.  Peer handlers, web seed tasks, the
thread that takes hash results and the readers that refresh a piece all work on
the same entries and received bits, and each of them lets the locks go several
times on its way.

Here every section under one lock is a step of its own.  A task is what a thread
that is inside one of the operations has still to do.
-/

inductive HashTask where
  /-- `handle_piece` has reserved a block and stores it. -/
  | writing (req index start length : Nat)
  /-- The received bit is set, and the piece may be received now. -/
  | received (piece : Nat)
  /-- `queue_piece_hash` begins. -/
  | queueing (piece : Nat)
  /-- The piece is marked, and its job goes to the pool. -/
  | handing (piece : Nat)
  /-- A web seed has data for the piece from `offset` on, `left` bytes. -/
  | fetching (piece offset left : Nat)
  /-- It has reserved the first block of them. -/
  | fetchWriting (piece offset left : Nat)
  /-- `apply_hash_result` has told the storage. -/
  | applying (piece : Nat) (valid : Bool)
  /-- The piece is to be asked for again: its received bits go. -/
  | dropping (piece : Nat)
  /-- `refresh_piece_completion` has asked the storage. -/
  | refreshing (piece : Nat) (complete : Bool)
  | probed (piece : Nat) (complete lost : Bool)
  | updating (piece : Nat) (complete lost : Bool)
  deriving DecidableEq

/-- What a section leaves: the torrent, a job for the pool, and the task. -/
structure Section where
  torrent : Torrent
  job : Option Nat := none
  next : Option HashTask := none

namespace Torrent

variable (torrent : Torrent)

def reqIndex (piece offset : Nat) : Nat :=
  reqIndexFromPieceAndOffset piece offset torrent.pieceLength

/-- The first byte of a piece was there at some time. -/
def hadLocalData (piece : Nat) : Bool :=
  torrent.pieces[piece]?.any (fun p => p.complete || p.partly) ||
    torrent.dirtyChunks.anyInRange (torrent.pieceRange piece).1 (torrent.pieceRange piece).2

def markable (piece : Nat) : Bool :=
  torrent.pieces[piece]?.any (fun p => !(p.checking || p.complete))

def enterHashResult (piece : Nat) (valid : Bool) : Torrent :=
  torrent.modifyPiece piece (fun p =>
    { p with checking := false, complete := valid, partly := p.partly && valid })

def evicts (piece : Nat) (complete lost : Bool) : Bool :=
  torrent.pieces[piece]?.any (fun p => (p.complete && !complete) || lost)

def enterCompletion (piece : Nat) (complete evicted : Bool) : Torrent :=
  torrent.modifyPiece piece (fun p =>
    { p with
      complete := complete
      partly := p.partly && !evicted
      checking := p.checking && !evicted })

end Torrent

namespace HashTask

/-- The next section of a task.  What the environment decides in it is `fine`:
the write succeeded, the piece has a v1 hash, the pool took the job, the first
byte can be read, or the storage still gives the answer the entry has. -/
def advance (torrent : Torrent) (fine : Bool) : HashTask -> Section
  | .writing req index start length =>
    let written := fine && (torrent.chunkStorageError index start length).isNone
    { torrent := torrent.finishChunkWrite req written
      next := if written then some (.received index) else none }
  | .received piece =>
    { torrent := torrent
      next := if torrent.pieceAllDirty piece then some (.queueing piece) else none }
  | .queueing piece =>
    if fine && torrent.markable piece then
      { torrent := torrent.modifyPiece piece (fun p => { p with checking := true })
        next := some (.handing piece) }
    else { torrent := torrent }
  | .handing piece =>
    if fine then { torrent := torrent, job := some piece }
    else { torrent := torrent.modifyPiece piece (fun p => { p with checking := false }) }
  | .fetching piece offset left =>
    if left = 0 then { torrent := torrent, next := some (.received piece) }
    else
      -- A block that a peer has delivered already is passed over.
      { torrent := (torrent.beginChunkWrite (torrent.reqIndex piece offset)).2
        next := some
          (if (torrent.beginChunkWrite (torrent.reqIndex piece offset)).1 then
            .fetchWriting piece offset left
          else .fetching piece (offset + blockSize) (left - blockSize)) }
  | .fetchWriting piece offset left =>
    let written := fine && (torrent.chunkStorageError piece offset (min blockSize left)).isNone
    { torrent := torrent.finishChunkWrite (torrent.reqIndex piece offset) written
      next := some
        (if written then .fetching piece (offset + blockSize) (left - blockSize)
        else .received piece) }
  | .applying piece valid =>
    if torrent.info.all (fun info => info.numPieces <= piece) then { torrent := torrent }
    else
      { torrent := torrent.enterHashResult piece valid
        next := if valid then none else some (.dropping piece) }
  | .dropping piece => { torrent := torrent.removeDirtyRange piece }
  | .refreshing piece complete =>
    { torrent := torrent
      next := some (.probed piece complete (!complete && torrent.hadLocalData piece && !fine)) }
  | .probed piece complete lost =>
    let unchanged := !lost && torrent.pieces[piece]?.all (fun p => p.complete == complete && fine)
    { torrent := torrent
      next := if unchanged then none else some (.updating piece complete lost) }
  | .updating piece complete lost =>
    { torrent := torrent.enterCompletion piece complete (torrent.evicts piece complete lost)
      next := if torrent.evicts piece complete lost then some (.dropping piece) else none }

def piece : HashTask -> Nat
  | .writing _ index _ _ => index
  | .received piece | .queueing piece | .handing piece | .fetching piece _ _
  | .fetchWriting piece _ _ | .applying piece _ | .dropping piece | .refreshing piece _
  | .probed piece _ _ | .updating piece _ _ => piece

/-- The completion that the next section of a task enters in the table. -/
def enters : HashTask -> Option (Nat × Bool)
  | .applying piece valid => some (piece, valid)
  | .updating piece complete _ => some (piece, complete)
  | .writing _ _ _ _ | .received _ | .queueing _ | .handing _ | .fetching _ _ _
  | .fetchWriting _ _ _ | .dropping _ | .refreshing _ _ | .probed _ _ _ => none

/-- A task that no other thread interrupts. -/
def alone (torrent : Torrent) : List Bool -> HashTask -> Torrent
  | [], _ => torrent
  | fine :: rest, task =>
    match (task.advance torrent fine).next with
    | none => (task.advance torrent fine).torrent
    | some next => next.alone (task.advance torrent fine).torrent rest

end HashTask

/-! ## Uninterrupted tasks

`queuePieceHash` and `refreshPieceCompletion`, one step in the other modules, are
these tasks, run without an interruption. -/

variable {torrent : Torrent}

theorem Torrent.modifyPiece_congr {piece : Nat} {change other : PieceEntry -> PieceEntry}
    (same : ∀ entry, torrent.pieces[piece]? = some entry -> change entry = other entry) :
    torrent.modifyPiece piece change = torrent.modifyPiece piece other := by
  rw [modifyPiece]
  congr 1
  apply ext_getElem?
  intro k
  rw [getElem?_modify, getElem?_modify]
  by_cases here : piece = k
  · subst here
    cases found : torrent.pieces[piece]? with
    | none => rfl
    | some entry => simp [same entry found]
  · simp [here]

theorem Torrent.modifyPiece_eq_self {piece : Nat} {change : PieceEntry -> PieceEntry}
    (same : ∀ entry, torrent.pieces[piece]? = some entry -> change entry = entry) :
    torrent.modifyPiece piece change = torrent := by
  rw [modifyPiece_congr (fun entry found => (same entry found).trans (id_eq entry).symm),
    modifyPiece, modify_id]

namespace HashTask

theorem alone_of_done {fine : Bool} {rest : List Bool} {task : HashTask}
    (done : (task.advance torrent fine).next = none) :
    task.alone torrent (fine :: rest) = (task.advance torrent fine).torrent := by
  rw [alone, done]

theorem alone_of_next {fine : Bool} {rest : List Bool} {task next : HashTask}
    (going : (task.advance torrent fine).next = some next) :
    task.alone torrent (fine :: rest) = next.alone (task.advance torrent fine).torrent rest := by
  rw [alone, going]

end HashTask

def onePiece : Torrent where
  info := some { pieceLength := 1, totalLength := 1 }
  pieces := [{}]

theorem alone_queueing (known : torrent.info.isSome = true) (piece : Nat) (hashed queued : Bool) :
    (HashTask.queueing piece).alone torrent [hashed, queued] =
      torrent.queuePieceHash piece (hashed && queued) := by
  rw [queuePieceHash, known, Bool.true_and]
  cases hashed with
  | false => simp [HashTask.alone, HashTask.advance]
  | true =>
    rw [Bool.true_and]
    cases markable : torrent.markable piece with
    | false =>
      rw [modifyPiece_eq_self, ite_self]
      · simp [HashTask.alone, HashTask.advance, markable]
      · intro entry found
        rw [Torrent.markable, found, any_some, Bool.not_eq_false'] at markable
        rw [if_pos markable]
    | true =>
      have free : ∀ entry, torrent.pieces[piece]? = some entry ->
          (entry.checking || entry.complete) = false := by
        intro entry found
        rwa [Torrent.markable, found, any_some, Bool.not_eq_true'] at markable
      cases queued with
      | false =>
        -- The mark of a refused job is taken back from an entry that had none.
        simp only [HashTask.alone, HashTask.advance, markable, Bool.and_self, if_true,
          Bool.false_eq_true, if_false, modifyPiece, modify_modify_eq]
        refine modifyPiece_eq_self fun entry found => ?_
        rw [<- (Bool.or_eq_false_iff.mp (free entry found)).1]
        rfl
      | true =>
        rw [if_pos rfl, modifyPiece_congr fun entry found => if_neg (by simp [free entry found])]
        simp [HashTask.alone, HashTask.advance, markable]

theorem alone_refreshing (known : torrent.info.isSome = true) (piece : Nat)
    (complete readable agrees : Bool) : (HashTask.refreshing piece complete).alone torrent [readable,
      agrees, true, true] = torrent.refreshPieceCompletion piece complete readable := by
  have sized : torrent.info.isNone = false := by
    rw [<- not_isSome, known]
    rfl
  rw [refreshPieceCompletion, sized]
  rw [HashTask.alone_of_next rfl]
  simp only [HashTask.advance]
  rw [<- hadLocalData]
  generalize (!complete && torrent.hadLocalData piece && !readable) = lost
  rw [<- evicts, <- enterCompletion]
  by_cases unchanged : (!lost &&
      torrent.pieces[piece]?.all (fun p => p.complete == complete && agrees)) = true
  · -- Nothing would change: the update finds the answer the entry already has.
    rw [HashTask.alone_of_done (by simp only [HashTask.advance, if_pos unchanged])]
    rw [Bool.and_eq_true, Bool.not_eq_true'] at unchanged
    have agreed : ∀ entry, torrent.pieces[piece]? = some entry -> entry.complete = complete := by
      intro entry found
      have both := unchanged.2
      rw [found, all_some, Bool.and_eq_true, beq_iff_eq] at both
      exact both.1
    have kept : torrent.evicts piece complete lost = false := by
      rw [evicts, unchanged.1]
      cases found : torrent.pieces[piece]? with
      | none => rfl
      | some entry => rw [any_some, agreed entry found, Bool.and_not_self, Bool.or_self]
    rw [kept]
    symm
    apply modifyPiece_eq_self
    intro entry found
    rw [<- agreed entry found]
    simp
  · have going : ((HashTask.probed piece complete lost).advance torrent agrees).next =
        some (.updating piece complete lost) :=
      if_neg unchanged
    rw [HashTask.alone_of_next going]
    simp only [HashTask.advance]
    cases gone : torrent.evicts piece complete lost with
    | false =>
      rw [HashTask.alone_of_done]
      · simp only [HashTask.advance, gone, if_neg Bool.false_ne_true]
      · simp only [HashTask.advance, gone, if_neg Bool.false_ne_true]
    | true =>
      have drops : ((HashTask.updating piece complete lost).advance torrent true).next =
          some (.dropping piece) :=
        if_pos gone
      rw [HashTask.alone_of_next drops]
      simp only [HashTask.advance, gone, if_true]
      rfl

theorem alone_refreshing_onePiece : (HashTask.refreshing 0 true).alone onePiece [true, true, true, true] =
    onePiece.refreshPieceCompletion 0 true true :=
  alone_refreshing rfl 0 true true true

/-- A torrent whose info is known, the pieces with a hash job that is queued or
running, and the tasks in progress. -/
structure Hashing where
  torrent : Torrent
  jobs : List Nat := []
  tasks : List HashTask := []

inductive HashingLabel where
  /-- A block message arrives. -/
  | receive (index start length : Nat)
  /-- A web seed answers. -/
  | fetch (piece offset length : Nat)
  | takeResult (piece : Nat) (valid : Bool)
  | refresh (piece : Nat) (complete : Bool)
  | advance (task : HashTask) (fine : Bool)

namespace Hashing

variable (hashing : Hashing)

def spawn (task : HashTask) : Hashing :=
  { hashing with tasks := hashing.tasks ++ [task] }

/-- A task has gone through its next section. -/
def replace (task : HashTask) (done : Section) : Hashing where
  torrent := done.torrent
  jobs := hashing.jobs ++ done.job.toList
  tasks := hashing.tasks.erase task ++ done.next.toList

def step : HashingLabel -> Option Hashing
  | .receive index start length =>
    let req := hashing.torrent.reqIndex index start
    let reserved := hashing.torrent.beginChunkWrite req
    if reserved.1 then
      some ({ hashing with torrent := reserved.2 }.spawn (.writing req index start length))
    else some { hashing with torrent := reserved.2 }
  | .fetch piece offset length => some (hashing.spawn (.fetching piece offset length))
  | .takeResult piece valid =>
    if piece ∈ hashing.jobs then
      some ({ hashing with jobs := hashing.jobs.erase piece }.spawn (.applying piece valid))
    else none
  | .refresh piece complete => some (hashing.spawn (.refreshing piece complete))
  | .advance task fine =>
    if task ∈ hashing.tasks then
      some (hashing.replace task (task.advance hashing.torrent fine))
    else none

/-- The info has just been set. -/
def Opened : Prop :=
  Exists fun info : Info => Exists fun complete : Nat -> Bool =>
    Exists fun downloadAll : Bool => Exists fun live : List (Finset Nat) =>
      hashing = { torrent := ({} : Torrent).setInfo info complete downloadAll live }

def machine : Machine Hashing HashingLabel where
  init := Opened
  step := step

/-- Some block of the piece can be asked for. -/
def Requestable (torrent : Torrent) (piece : Nat) : Prop :=
  Exists fun req => (torrent.pieceRange piece).1 <= req /\ req < (torrent.pieceRange piece).2 /\
    torrent.dirtyChunks.contains req = false

/-- The piece is complete and not being checked, or can be asked for, or is
being checked by a job that is there. -/
def NotStuck (piece : Nat) : Prop :=
  ∀ entry, hashing.torrent.pieces[piece]? = some entry -> (entry.complete = false ->
      Requestable hashing.torrent piece ∨ entry.checking = true /\ piece ∈ hashing.jobs) /\
    (entry.complete = true -> entry.checking = false)

/-- A block message is about a block of the piece that it names; a piece that is
to be checked has a v1 hash, and the pool takes its job; and the storage
declares a piece that is being checked complete only when the result of a check
has just told it so. -/
def Accepted : HashingLabel -> Prop
  | .receive index start _ =>
    (hashing.torrent.blockCoord (hashing.torrent.reqIndex index start)).piece = index
  | .advance (.queueing _) fine | .advance (.handing _) fine => fine = true
  | .advance (.updating piece complete _) _ =>
    complete = true -> hashing.torrent.pieces[piece]?.any PieceEntry.checking = true ->
      Exists fun valid => .applying piece valid ∈ hashing.tasks
  | .advance (.writing _ _ _ _) _ | .advance (.received _) _ | .advance (.fetching _ _ _) _
  | .advance (.fetchWriting _ _ _) _ | .advance (.applying _ _) _ | .advance (.dropping _) _
  | .advance (.refreshing _ _) _ | .advance (.probed _ _ _) _ | .fetch _ _ _ | .takeResult _ _
  | .refresh _ _ => True

end Hashing
end TorrentPlayer.Core
