import TorrentPlayer.Core.PieceChecks

namespace TorrentPlayer.Core

open Library Torrent HashTask List Option ChunkBits

namespace Hashing

/-!
# No received piece is forgotten

A piece whose blocks have all arrived is marked for checking, or some task that
is still in progress owes it something: to look whether it is received, or to
clear its bits.  A piece that is marked has a job, or a task that will hand one
in or take the mark away.  Every section of every task keeps this up, for its
own piece and for all others, as long as the pool takes the jobs.
-/

def SameMarks (piece : Nat) (before after : Torrent) : Prop :=
  ∀ entry, after.pieces[piece]? = some entry -> Exists fun old => before.pieces[piece]? = some old /\
      entry.complete = old.complete /\ entry.checking = old.checking

theorem SameMarks.refl (piece : Nat) (torrent : Torrent) : SameMarks piece torrent torrent :=
  fun entry found => ⟨entry, found, rfl, rfl⟩

variable {piece : Nat} {before after torrent : Torrent} {info : Info} {task : HashTask}
  {fine : Bool} {hashing : Hashing} {done : Section}

theorem sameMarks_of_pieces (same : after.pieces = before.pieces) : SameMarks piece before after := by
  intro entry found
  rw [same] at found
  exact ⟨entry, found, rfl, rfl⟩

theorem sameMarks_of_edits {other : Nat} {kind : PieceEntry -> PieceEntry -> Prop}
    (edits : Torrent.Edits other kind before after)
    (keeps : piece = other -> ∀ old entry, kind old entry ->
      entry.complete = old.complete /\ entry.checking = old.checking) :
    SameMarks piece before after := by
  intro entry found
  rcases edits.entry found with ⟨old, foundOld, same | ⟨here, changed⟩⟩
  · rw [same]
    exact ⟨old, foundOld, rfl, rfl⟩
  · exact ⟨old, foundOld, keeps here old entry changed⟩

section
variable (torrent : Torrent)

theorem sameMarks_finishChunkWrite (req piece : Nat) (written : Bool) :
    SameMarks piece torrent (torrent.finishChunkWrite req written) := by
  apply sameMarks_of_edits (torrent.finishChunkWrite_edits req written)
  intro _ old entry changed
  rw [changed]
  exact ⟨rfl, rfl⟩

theorem modifyPiece_edits (piece : Nat) (change : PieceEntry -> PieceEntry) :
    Torrent.Edits piece (fun old entry => entry = change old) torrent (torrent.modifyPiece piece change) :=
  ⟨rfl, Or.inr ⟨change, rfl, fun _ => rfl⟩⟩

theorem beginChunkWrite_same (req : Nat) : (torrent.beginChunkWrite req).2.info = torrent.info /\
    (torrent.beginChunkWrite req).2.pieces = torrent.pieces /\
    (torrent.beginChunkWrite req).2.dirtyChunks = torrent.dirtyChunks := by
  unfold beginChunkWrite
  dsimp only
  split
  · exact ⟨rfl, rfl, rfl⟩
  · split <;> exact ⟨rfl, rfl, rfl⟩

-- As `rfl` this takes the kernel into the bits.
theorem removeDirtyRange_same (piece : Nat) : (torrent.removeDirtyRange piece).info = torrent.info /\
    (torrent.removeDirtyRange piece).pieces = torrent.pieces := by
  rw [removeDirtyRange]
  exact ⟨rfl, rfl⟩

theorem pieceRange_congr (info : after.info = before.info) (piece : Nat) :
    after.pieceRange piece = before.pieceRange piece := by
  rw [pieceRange, pieceRange, pieceLength, pieceLength, totalLength, totalLength, info]

theorem pieceAllDirty_iff (piece : Nat) : torrent.pieceAllDirty piece = true <->
    torrent.info.isSome = true /\ (torrent.pieceRange piece).1 < (torrent.pieceRange piece).2 /\
      ∀ req, (torrent.pieceRange piece).1 <= req -> req < (torrent.pieceRange piece).2 ->
        torrent.dirtyChunks.contains req = true := by
  rw [pieceAllDirty, Bool.and_eq_true, allInRange_eq_true_iff]

theorem pieceAllDirty_of_fewer (info : after.info = before.info)
    (fewer : ∀ req, (before.pieceRange piece).1 <= req ->
      req < (before.pieceRange piece).2 -> after.dirtyChunks.contains req = true ->
      before.dirtyChunks.contains req = true) (all : after.pieceAllDirty piece = true) :
    before.pieceAllDirty piece = true := by
  rw [pieceAllDirty_iff, info, pieceRange_congr info] at all
  rw [pieceAllDirty_iff]
  exact ⟨all.1, all.2.1, fun req low high => fewer req low high (all.2.2 req low high)⟩

theorem not_pieceAllDirty_removeDirtyRange (piece : Nat) :
    (torrent.removeDirtyRange piece).pieceAllDirty piece = false := by
  have range := pieceRange_congr (removeDirtyRange_same torrent piece).1 piece
  rw [<- Bool.not_eq_true, pieceAllDirty_iff, range]
  rintro ⟨_, some_block, all⟩
  have first := all _ (Nat.le_refl _) some_block
  rw [removeDirtyRange, contains_removeRange] at first
  simp [some_block] at first

end

theorem pieceAllDirty_of_removeDirtyRange {other : Nat}
    (all : (torrent.removeDirtyRange other).pieceAllDirty piece = true) :
    torrent.pieceAllDirty piece = true := by
  refine pieceAllDirty_of_fewer (removeDirtyRange_same torrent other).1 (fun req _ _ set => ?_) all
  rw [removeDirtyRange, contains_removeRange, Bool.and_eq_true] at set
  exact set.1

/-- Setting the bit of a block of another piece leaves a piece as it is. -/
theorem pieceAllDirty_of_finishChunkWrite (known : torrent.info = some info)
    (countable : info.Countable) {req : Nat} {written : Bool} (inside : piece < info.numPieces)
    (elsewhere : written = true -> (torrent.blockCoord req).piece ≠ piece)
    (all : (torrent.finishChunkWrite req written).pieceAllDirty piece = true) :
    torrent.pieceAllDirty piece = true := by
  refine pieceAllDirty_of_fewer (torrent.finishChunkWrite_edits req written).info ?_ all
  intro other low high set
  rw [finishChunkWrite_dirty] at set
  split at set
  next done =>
    rw [contains_insert, Bool.or_eq_true, Bool.and_eq_true, beq_iff_eq] at set
    rcases set with before | ⟨same, _⟩
    · exact before
    subst same
    have lengths : torrent.pieceLength = info.pieceLength /\ torrent.totalLength = info.totalLength := by
      rw [pieceLength, totalLength, known]
      exact ⟨rfl, rfl⟩
    rw [pieceRange, lengths.1, lengths.2] at low high
    have own := (countable.pieceReqIndexRange_spec inside).2 req low high
    refine absurd ?_ (elsewhere done)
    rw [blockCoord, lengths.1]
    exact own
  · exact set

theorem requestable_of_not_received (known : torrent.info = some info) (countable : info.Countable)
    (inside : piece < info.numPieces) (missing : ¬ torrent.pieceAllDirty piece = true) :
    Requestable torrent piece := by
  have range : torrent.pieceRange piece = pieceReqIndexRange piece info.pieceLength info.totalLength := by
    rw [pieceRange, pieceLength, totalLength, known]
    rfl
  have some_block := (countable.pieceReqIndexRange_spec inside).1
  rw [<- range] at some_block
  by_contra none
  apply missing
  rw [pieceAllDirty_iff]
  refine ⟨by rw [known]; rfl, some_block, fun req low high => ?_⟩
  rw [<- Bool.not_eq_false]
  exact fun clear => none ⟨req, low, high, clear⟩

/-- The task has still to see whether the piece is received, or to clear its
bits. -/
def Owes (piece : Nat) : HashTask -> Prop
  | .received other | .queueing other | .fetching other _ _ | .fetchWriting other _ _
  | .dropping other => other = piece
  | .writing _ _ _ _ | .handing _ | .applying _ _ | .refreshing _ _ | .probed _ _ _
  | .updating _ _ _ => False

/-- The piece is marked, and the task has still to hand in its job or to take
the mark away. -/
def Marks (piece : Nat) : HashTask -> Prop
  | .handing other | .applying other _ => other = piece
  | .writing _ _ _ _ | .received _ | .queueing _ | .fetching _ _ _ | .fetchWriting _ _ _
  | .dropping _ | .refreshing _ _ | .probed _ _ _ | .updating _ _ _ => False

theorem piece_of_owes (owes : Owes piece task) : task.piece = piece := by
  cases task <;> first | exact owes | exact owes.elim

theorem piece_of_marks (marks : Marks piece task) : task.piece = piece := by
  cases task <;> first | exact marks | exact marks.elim

/-- What a piece that is not complete and received, and a piece that is marked,
rest on. -/
structure Watched (hashing : Hashing) (piece : Nat) : Prop where
  owed : ∀ entry, hashing.torrent.pieces[piece]? = some entry -> entry.complete = false ->
    hashing.torrent.pieceAllDirty piece = true ->
    entry.checking = true ∨ Exists fun task => task ∈ hashing.tasks /\ Owes piece task
  marked : ∀ entry, hashing.torrent.pieces[piece]? = some entry -> entry.checking = true ->
    piece ∈ hashing.jobs ∨ Exists fun task => task ∈ hashing.tasks /\ Marks piece task
  settled : ∀ entry, hashing.torrent.pieces[piece]? = some entry ->
    entry.complete = true -> entry.checking = true ->
    Exists fun valid => .applying piece valid ∈ hashing.tasks

def Placed (torrent : Torrent) : HashTask -> Prop
  | .writing req index _ _ => (torrent.blockCoord req).piece = index
  | .fetchWriting _ _ left => left ≠ 0
  | .received _ | .queueing _ | .handing _ | .fetching _ _ _ | .applying _ _ | .dropping _
  | .refreshing _ _ | .probed _ _ _ | .updating _ _ _ => True

structure Sound (info : Info) (hashing : Hashing) : Prop where
  known : hashing.torrent.info = some info
  sized : hashing.torrent.pieces.length = info.numPieces
  placed : ∀ task ∈ hashing.tasks, Placed hashing.torrent task
  watched : ∀ piece < info.numPieces, Watched hashing piece

/-- The marks of a piece are as they were, and what they rest on is still
there; and so is what a received piece is owed, unless it needs nothing. -/
theorem Watched.of_sameMarks {before after : Hashing} (watched : Watched before piece)
    (same : SameMarks piece before.torrent after.torrent)
    (jobs : piece ∈ before.jobs -> piece ∈ after.jobs)
    (marks : ∀ task ∈ before.tasks, Marks piece task -> task ∈ after.tasks)
    (owed : after.torrent.pieceAllDirty piece = true -> (before.torrent.pieceAllDirty piece = true /\
        ∀ task ∈ before.tasks, Owes piece task -> task ∈ after.tasks) \/
      (Exists fun task => task ∈ after.tasks /\ Owes piece task) \/
      ∀ entry, before.torrent.pieces[piece]? = some entry -> entry.complete = false ->
        entry.checking = true) : Watched after piece where
  owed := by
    intro entry found incomplete all
    rcases same entry found with ⟨old, foundOld, complete, checking⟩
    rw [complete] at incomplete
    rw [checking]
    rcases owed all with ⟨received, kept⟩ | new | settled
    · rcases watched.owed old foundOld incomplete received with marked | ⟨task, member, owes⟩
      · exact .inl marked
      · exact .inr ⟨task, kept task member owes, owes⟩
    · exact .inr new
    · exact .inl (settled old foundOld incomplete)
  marked := by
    intro entry found isMarked
    rcases same entry found with ⟨old, foundOld, _, checking⟩
    rw [checking] at isMarked
    rcases watched.marked old foundOld isMarked with job | ⟨task, member, marking⟩
    · exact .inl (jobs job)
    · exact .inr ⟨task, marks task member marking, marking⟩
  settled := by
    intro entry found isComplete isMarked
    rcases same entry found with ⟨old, foundOld, complete, checking⟩
    rw [complete] at isComplete
    rw [checking] at isMarked
    rcases watched.settled old foundOld isComplete isMarked with ⟨valid, member⟩
    exact ⟨valid, marks _ member rfl⟩

/-! ## A section and the other pieces -/

theorem piece_of_stored (known : torrent.info = some info) (countable : info.Countable)
    {offset length : Nat} (some_byte : 0 < length)
    (fits : torrent.chunkStorageError piece offset length = none) :
    (torrent.blockCoord (torrent.reqIndex piece offset)).piece = piece := by
  have lengths : torrent.pieceLength = info.pieceLength := by
    rw [pieceLength, known]
    rfl
  rw [chunkStorageError, known] at fits
  dsimp only at fits
  split at fits
  · cases fits
  rename_i inside
  simp only [Bool.or_eq_true, decide_eq_true_eq, not_or, Nat.not_le, Nat.not_lt] at inside
  rw [blockCoord, reqIndex, lengths]
  exact countable.piece_of_reqIndex (by omega)

inductive Effect (task : HashTask) (torrent : Torrent) : Torrent -> Prop where
  | nothing : Effect task torrent torrent
  | reserved (req : Nat) : Effect task torrent (torrent.beginChunkWrite req).2
  /-- A block that is stored is one of the task's piece. -/
  | stored (req : Nat) (written : Bool) (own : ∀ info, torrent.info = some info ->
      info.Countable -> Placed torrent task -> written = true ->
        (torrent.blockCoord req).piece = task.piece) :
      Effect task torrent (torrent.finishChunkWrite req written)
  | marked (checking : Bool) : Effect task torrent
      (torrent.modifyPiece task.piece (fun p => { p with checking := checking }))
  | entered (change : PieceEntry -> PieceEntry) (complete : Bool)
      (enters : task.enters = some (task.piece, complete)) :
      Effect task torrent (torrent.modifyPiece task.piece change)
  | dropped : Effect task torrent (torrent.removeDirtyRange task.piece)

theorem effect_advance (task : HashTask) (torrent : Torrent) (fine : Bool) :
    Effect task torrent (task.advance torrent fine).torrent := by
  cases task with
  | writing req index start length => exact .stored _ _ fun _ _ _ placed _ => placed
  | received => exact .nothing
  | queueing =>
    simp only [advance]
    split
    · exact .marked true
    · exact .nothing
  | handing =>
    simp only [advance]
    split
    · exact .nothing
    · exact .marked false
  | fetching =>
    simp only [advance]
    split
    · exact .nothing
    · exact .reserved _
  | fetchWriting piece offset left =>
    refine .stored _ _ fun info known countable placed written => ?_
    have some_byte : 0 < min blockSize left :=
      Nat.lt_min.mpr ⟨by decide, Nat.pos_of_ne_zero placed⟩
    rw [Bool.and_eq_true, isNone_iff_eq_none] at written
    exact piece_of_stored known countable some_byte written.2
  | applying piece valid =>
    simp only [advance]
    split
    · exact .nothing
    · exact .entered _ valid rfl
  | dropping => exact .dropped
  | refreshing | probed => exact .nothing
  | updating piece complete => exact .entered _ complete rfl

theorem advance_frame (task : HashTask) (torrent : Torrent) (fine : Bool) :
    (task.advance torrent fine).torrent.info = torrent.info /\
    (task.advance torrent fine).torrent.pieces.length = torrent.pieces.length := by
  have effect := effect_advance task torrent fine
  generalize (task.advance torrent fine).torrent = later at effect ⊢
  cases effect with
  | nothing => exact ⟨rfl, rfl⟩
  | dropped =>
    have same := removeDirtyRange_same torrent task.piece
    exact ⟨same.1, congrArg List.length same.2⟩
  | reserved req =>
    have same := beginChunkWrite_same torrent req
    exact ⟨same.1, congrArg List.length same.2.1⟩
  | stored req written =>
    have edits := torrent.finishChunkWrite_edits req written
    exact ⟨edits.info, edits.length⟩
  | marked | entered => exact ⟨rfl, (modifyPiece_edits torrent _ _).length⟩

theorem sameMarks_advance (differs : task.piece ≠ piece) :
    SameMarks piece torrent (task.advance torrent fine).torrent := by
  have modified : ∀ change, SameMarks piece torrent (torrent.modifyPiece task.piece change) :=
    fun change => sameMarks_of_edits (modifyPiece_edits torrent _ change)
      (fun here => absurd here.symm differs)
  have effect := effect_advance task torrent fine
  generalize (task.advance torrent fine).torrent = later at effect ⊢
  cases effect with
  | nothing => exact .refl piece torrent
  | reserved req => exact sameMarks_of_pieces (beginChunkWrite_same torrent req).2.1
  | stored req written => exact sameMarks_finishChunkWrite torrent req piece written
  | marked => exact modified _
  | entered change => exact modified change
  | dropped => exact sameMarks_of_pieces (removeDirtyRange_same torrent _).2

theorem pieceComplete_advance (elsewhere : ∀ complete, task.enters ≠ some (piece, complete)) :
    (task.advance torrent fine).torrent.pieceComplete piece = torrent.pieceComplete piece := by
  have effect := effect_advance task torrent fine
  generalize (task.advance torrent fine).torrent = later at effect ⊢
  cases effect with
  | nothing => rfl
  | reserved req => rw [pieceComplete, pieceComplete, (beginChunkWrite_same torrent req).2.1]
  | stored req written =>
    apply (torrent.finishChunkWrite_edits req written).pieceComplete_eq
    intro _ old entry changed
    rw [changed]
  | marked =>
    apply (modifyPiece_edits torrent _ _).pieceComplete_eq
    intro _ old entry changed
    rw [changed]
  | entered change complete enters =>
    apply (modifyPiece_edits torrent _ change).pieceComplete_eq
    intro here
    rw [<- here] at enters
    exact absurd enters (elsewhere complete)
  | dropped => rw [pieceComplete, pieceComplete, (removeDirtyRange_same torrent _).2]

theorem pieceComplete_of_enters {complete : Bool}
    (sized : torrent.pieces.length = torrent.info.elim 0 Info.numPieces)
    (inside : piece < torrent.pieces.length) (enters : task.enters = some (piece, complete)) :
    (task.advance torrent fine).torrent.pieceComplete piece = complete := by
  have entered : ∀ change : PieceEntry -> PieceEntry, (∀ entry, (change entry).complete = complete) ->
      (torrent.modifyPiece piece change).pieceComplete piece = complete := by
    intro change changes
    rw [pieceComplete, modifyPiece, getElem?_modify, getElem?_eq_getElem inside]
    simp [changes]
  cases task with
  | applying =>
    cases enters
    have accepted : ¬ (torrent.info.all (fun info => info.numPieces <= piece)) = true := by
      rw [sized] at inside
      cases known : torrent.info with
      | none =>
        rw [known] at inside
        exact absurd inside (Nat.not_lt_zero _)
      | some =>
        rw [known] at inside
        simpa using inside
    simp only [advance, if_neg accepted]
    exact entered _ fun _ => rfl
  | updating =>
    cases enters
    exact entered _ fun _ => rfl
  | writing _ _ _ _ | received _ | queueing _ | handing _ | fetching _ _ _ | fetchWriting _ _ _
  | dropping | refreshing | probed => cases enters

theorem pieceAllDirty_of_advance (known : torrent.info = some info) (countable : info.Countable)
    (placed : Placed torrent task) (inside : piece < info.numPieces) (differs : task.piece ≠ piece)
    (all : (task.advance torrent fine).torrent.pieceAllDirty piece = true) :
    torrent.pieceAllDirty piece = true := by
  have effect := effect_advance task torrent fine
  generalize (task.advance torrent fine).torrent = later at effect all
  cases effect with
  | nothing => exact all
  | reserved req =>
    have same := beginChunkWrite_same torrent req
    refine pieceAllDirty_of_fewer same.1 (fun req _ _ set => ?_) all
    rwa [same.2.2] at set
  | stored req written own =>
    refine pieceAllDirty_of_finishChunkWrite known countable inside (fun done => ?_) all
    rw [own info known countable placed done]
    exact differs
  | marked | entered => exact all
  | dropped => exact pieceAllDirty_of_removeDirtyRange all

abbrev afterSection (hashing : Hashing) (task : HashTask) (fine : Bool) : Hashing :=
  hashing.replace task (task.advance hashing.torrent fine)

theorem mem_replace {other : HashTask} (member : other ∈ hashing.tasks) (differs : other ≠ task) :
    other ∈ (hashing.replace task done).tasks :=
  mem_append_left _ ((mem_erase_of_ne differs).mpr member)

variable {next : HashTask}

theorem next_mem_replace (going : done.next = some next) : next ∈ (hashing.replace task done).tasks := by
  apply mem_append_right
  rw [going]
  exact mem_singleton_self next

/-- A section that leaves the marks of a piece, and does not forget what is owed to it. -/
theorem Watched.replace (watched : Watched hashing piece)
    (same : SameMarks piece hashing.torrent done.torrent) (unmarking : ¬ Marks piece task)
    (owed : done.torrent.pieceAllDirty piece = true ->
      (hashing.torrent.pieceAllDirty piece = true /\ ¬ Owes piece task) \/
      (Exists fun next => done.next = some next /\ Owes piece next) \/
      ∀ entry, hashing.torrent.pieces[piece]? = some entry -> entry.complete = false ->
      entry.checking = true) : Watched (hashing.replace task done) piece := by
  refine watched.of_sameMarks same (fun job => mem_append_left _ job) ?_ ?_
  · intro other there marks
    exact mem_replace there (fun equal => unmarking (equal ▸ marks))
  · intro all
    rcases owed all with ⟨received, owing⟩ | ⟨next, going, owes⟩ | settled
    · exact .inl ⟨received, fun other there owes => mem_replace there (fun equal => owing (equal ▸ owes))⟩
    · exact .inr (Or.inl ⟨next, next_mem_replace going, owes⟩)
    · exact .inr (Or.inr settled)

theorem watched_other (sound : Sound info hashing) (countable : info.Countable)
    (member : task ∈ hashing.tasks) (fine : Bool) (inside : piece < info.numPieces)
    (differs : task.piece ≠ piece) : Watched (hashing.afterSection task fine) piece :=
  (sound.watched piece inside).replace (sameMarks_advance differs)
    (fun marks => differs (piece_of_marks marks))
    (fun all => Or.inl ⟨pieceAllDirty_of_advance sound.known countable (sound.placed task member)
      inside differs all, fun owes => differs (piece_of_owes owes)⟩)

/-! ## A section and its own piece -/

/-- The marks of the task's own piece stay, and the task is followed by one that
owes as much. -/
theorem watched_of_next (watched : Watched hashing piece)
    (same : SameMarks piece hashing.torrent done.torrent) (unmarking : ¬ Marks piece task)
    (going : done.next = some next) (owes : Owes piece next) : Watched (hashing.replace task done) piece :=
  watched.replace same unmarking (fun _ => Or.inr (Or.inl ⟨next, going, owes⟩))

/-- The task changed nothing that matters here. -/
theorem watched_of_idle (watched : Watched hashing piece)
    (same : SameMarks piece hashing.torrent done.torrent)
    (fewer : done.torrent.pieceAllDirty piece = true ->
      hashing.torrent.pieceAllDirty piece = true) (unmarking : ¬ Marks piece task)
    (owing : ¬ Owes piece task) : Watched (hashing.replace task done) piece :=
  watched.replace same unmarking (fun all => Or.inl ⟨fewer all, owing⟩)

theorem watched_writing {req index start length : Nat} (watched : Watched hashing index) :
    Watched (hashing.afterSection (.writing req index start length) fine) index := by
  have same := sameMarks_finishChunkWrite hashing.torrent req index
  simp only [afterSection, advance]
  cases (fine && (hashing.torrent.chunkStorageError index start length).isNone) with
  | false => exact watched_of_idle watched (same false) id id id
  | true =>
    have owes : Owes index (.received index) := rfl
    exact watched_of_next watched (same true) id rfl owes

theorem entry_modifyPiece {change : PieceEntry -> PieceEntry} {entry : PieceEntry}
    (found : (torrent.modifyPiece piece change).pieces[piece]? = some entry) :
    Exists fun old => torrent.pieces[piece]? = some old /\ entry = change old := by
  rw [modifyPiece, getElem?_modify_eq, Option.map_eq_map, map_eq_some_iff] at found
  rcases found with ⟨old, foundOld, changed⟩
  exact ⟨old, foundOld, changed.symm⟩

section
variable (watched : Watched hashing piece)
include watched

theorem watched_received : Watched (hashing.afterSection (.received piece) fine) piece := by
  cases all : hashing.torrent.pieceAllDirty piece with
  | true =>
    have owes : Owes piece (.queueing piece) := rfl
    exact watched_of_next watched (.refl piece _) id (if_pos all) owes
  | false =>
    -- Nobody else may count on this task, but the piece is not received.
    refine watched.replace (.refl piece _) id fun received => ?_
    rw [show ((HashTask.received piece).advance hashing.torrent fine).torrent =
      hashing.torrent from rfl, all] at received
    cases received

theorem watched_queueing : Watched (hashing.afterSection (.queueing piece) true) piece := by
  simp only [afterSection, advance, Bool.true_and]
  cases free : hashing.torrent.markable piece with
  | true =>
    have entryIs : ∀ entry, (hashing.torrent.modifyPiece piece
        (fun p => { p with checking := true })).pieces[piece]? = some entry ->
        entry.checking = true /\ entry.complete = false := by
      intro entry found
      rcases entry_modifyPiece found with ⟨_, foundOld, rfl⟩
      rw [markable, foundOld, any_some, Bool.not_eq_true', Bool.or_eq_false_iff] at free
      exact ⟨rfl, free.2⟩
    refine ⟨fun entry found _ _ => Or.inl (entryIs entry found).1, fun _ _ _ => ?_, ?_⟩
    · exact .inr ⟨.handing piece, next_mem_replace rfl, rfl⟩
    · intro entry found complete
      rw [(entryIs entry found).2] at complete
      cases complete
  | false =>
    refine watched.replace (.refl piece _) id (fun _ => Or.inr (Or.inr (fun entry found incomplete => ?_)))
    rw [markable, found, any_some, incomplete, Bool.or_false, Bool.not_eq_false'] at free
    exact free

theorem watched_handing : Watched (hashing.afterSection (.handing piece) true) piece := by
  have kept : ∀ other ∈ hashing.tasks, ¬ other = .handing piece ->
      other ∈ (hashing.afterSection (.handing piece) true).tasks :=
    fun other there differs => mem_replace there differs
  refine ⟨?_, ?_, ?_⟩
  · intro entry found incomplete all
    rcases watched.owed entry found incomplete all with marked | ⟨task, there, owes⟩
    · exact .inl marked
    refine .inr ⟨task, kept task there (fun equal => ?_), owes⟩
    rw [equal] at owes
    exact owes
  · intro _ _ _
    exact .inl (mem_append_right _ (mem_singleton_self piece))
  · intro entry found complete marked
    rcases watched.settled entry found complete marked with ⟨valid, there⟩
    refine ⟨valid, kept _ there (fun equal => ?_)⟩
    cases equal

theorem watched_fetching {offset left : Nat} :
    Watched (hashing.afterSection (.fetching piece offset left) fine) piece := by
  simp only [afterSection, advance]
  split
  · have owes : Owes piece (.received piece) := rfl
    exact watched_of_next watched (.refl piece _) id rfl owes
  have same : SameMarks piece hashing.torrent
      (hashing.torrent.beginChunkWrite (hashing.torrent.reqIndex piece offset)).2 :=
    sameMarks_of_pieces (beginChunkWrite_same hashing.torrent _).2.1
  refine watched_of_next watched same id rfl ?_
  split
  · exact rfl
  · exact rfl

theorem watched_fetchWriting {offset left : Nat} :
    Watched (hashing.afterSection (.fetchWriting piece offset left) fine) piece := by
  refine watched_of_next watched (sameMarks_finishChunkWrite hashing.torrent _ piece _) id rfl ?_
  split
  · exact rfl
  · exact rfl

theorem watched_dropping : Watched (hashing.afterSection (.dropping piece) fine) piece := by
  refine watched.replace (sameMarks_of_pieces (removeDirtyRange_same _ piece).2) id fun all => ?_
  rw [show ((dropping piece).advance hashing.torrent fine).torrent.pieceAllDirty piece =
    false from not_pieceAllDirty_removeDirtyRange hashing.torrent piece] at all
  cases all

end

theorem watched_applying (known : hashing.torrent.info = some info) (inside : piece < info.numPieces)
    (valid fine : Bool) : Watched (hashing.afterSection (.applying piece valid) fine) piece := by
  simp only [afterSection, advance, known, all_some, decide_eq_true_eq, if_neg (Nat.not_le.mpr inside)]
  have entryIs : ∀ entry, (hashing.torrent.enterHashResult piece valid).pieces[piece]? =
      some entry -> entry.checking = false /\ entry.complete = valid := by
    intro entry found
    rcases entry_modifyPiece found with ⟨_, _, rfl⟩
    exact ⟨rfl, rfl⟩
  refine ⟨?_, ?_, ?_⟩
  · intro entry found incomplete _
    rw [(entryIs entry found).2] at incomplete
    right
    refine ⟨.dropping piece, next_mem_replace ?_, rfl⟩
    rw [incomplete]
    rfl
  · intro entry found marked
    rw [(entryIs entry found).1] at marked
    cases marked
  · intro entry found _ marked
    rw [(entryIs entry found).1] at marked
    cases marked

theorem watched_updating {complete lost : Bool} (watched : Watched hashing piece)
    (told : complete = true -> hashing.torrent.pieces[piece]?.any PieceEntry.checking = true ->
      Exists fun valid => .applying piece valid ∈ hashing.tasks) :
    Watched (hashing.afterSection (.updating piece complete lost) fine) piece := by
  simp only [afterSection, advance]
  have entryIs : ∀ entry, (hashing.torrent.enterCompletion piece complete
      (hashing.torrent.evicts piece complete lost)).pieces[piece]? = some entry ->
      Exists fun old => hashing.torrent.pieces[piece]? = some old /\ entry.complete = complete /\
        entry.checking = (old.checking && !hashing.torrent.evicts piece complete lost) /\
        hashing.torrent.evicts piece complete lost = ((old.complete && !complete) || lost) := by
    intro entry found
    rcases entry_modifyPiece found with ⟨old, foundOld, rfl⟩
    refine ⟨old, foundOld, rfl, rfl, ?_⟩
    rw [evicts, foundOld, any_some]
  generalize gone : hashing.torrent.evicts piece complete lost = evicted at entryIs
  cases evicted with
  | true =>
    refine ⟨fun _ _ _ _ => Or.inr ⟨.dropping piece, next_mem_replace rfl, rfl⟩, ?_, ?_⟩
    · intro entry found marked
      rcases entryIs entry found with ⟨_, _, _, checking, _⟩
      rw [checking, Bool.not_true, Bool.and_false] at marked
      cases marked
    · intro entry found _ marked
      rcases entryIs entry found with ⟨_, _, _, checking, _⟩
      rw [checking, Bool.not_true, Bool.and_false] at marked
      cases marked
  | false =>
    have kept : ∀ other ∈ hashing.tasks, other ≠ .updating piece complete lost ->
        other ∈ (hashing.replace (.updating piece complete lost)
          { torrent := hashing.torrent.enterCompletion piece complete false
            next := if false = true then some (.dropping piece) else none }).tasks :=
      fun other there differs => mem_replace there differs
    refine ⟨?_, ?_, ?_⟩
    · intro entry found incomplete all
      rcases entryIs entry found with ⟨old, foundOld, completeIs, checking, kind⟩
      rw [completeIs] at incomplete
      rw [incomplete, Bool.not_false, Bool.and_true] at kind
      have oldIncomplete := (Bool.or_eq_false_iff.mp kind.symm).1
      rw [checking, Bool.not_false, Bool.and_true]
      rcases watched.owed old foundOld oldIncomplete all with marked | ⟨task, there, owes⟩
      · exact .inl marked
      refine .inr ⟨task, kept task there (fun equal => ?_), owes⟩
      rw [equal] at owes
      exact owes
    · intro entry found marked
      rcases entryIs entry found with ⟨old, foundOld, _, checking, _⟩
      rw [checking, Bool.not_false, Bool.and_true] at marked
      rcases watched.marked old foundOld marked with job | ⟨task, there, marks⟩
      · exact .inl (mem_append_left _ job)
      refine .inr ⟨task, kept task there (fun equal => ?_), marks⟩
      rw [equal] at marks
      exact marks
    · intro entry found completeNow marked
      rcases entryIs entry found with ⟨_, foundOld, completeIs, checking, _⟩
      rw [completeIs] at completeNow
      rw [checking, Bool.not_false, Bool.and_true] at marked
      rcases told completeNow (by rw [foundOld, any_some, marked]) with ⟨valid, there⟩
      refine ⟨valid, kept _ there (fun equal => ?_)⟩
      cases equal

theorem watched_own (known : hashing.torrent.info = some info)
    (accepted : hashing.Accepted (.advance task fine)) (inside : task.piece < info.numPieces)
    (watched : Watched hashing task.piece) : Watched (hashing.afterSection task fine) task.piece := by
  cases task with
  | writing => exact watched_writing watched
  | received => exact watched_received watched
  | queueing =>
    rw [show fine = true from accepted]
    exact watched_queueing watched
  | handing =>
    rw [show fine = true from accepted]
    exact watched_handing watched
  | fetching => exact watched_fetching watched
  | fetchWriting => exact watched_fetchWriting watched
  | applying piece valid => exact watched_applying known inside valid fine
  | dropping => exact watched_dropping watched
  | refreshing piece | probed piece => exact watched_of_idle watched (.refl piece _) id id id
  | updating => exact watched_updating watched accepted

theorem placed_congr (info : after.info = before.info) (placed : Placed before task) : Placed after task := by
  cases task with
  | writing req =>
    have coord : after.blockCoord req = before.blockCoord req := by
      rw [blockCoord, blockCoord, pieceLength, pieceLength, totalLength, totalLength, info]
    rw [Placed, coord]
    exact placed
  | received | queueing | handing | fetching | fetchWriting | applying | dropping | refreshing
  | probed | updating => exact placed

/-- A task that is followed by a reserved block of a web seed has data left. -/
theorem placed_next (going : (task.advance torrent fine).next = some next) : Placed after next := by
  cases task with
  | fetching =>
    simp only [advance] at going
    split at going
    · cases going
      trivial
    · rename_i some_left
      cases going
      split
      · exact some_left
      · trivial
  | fetchWriting =>
    cases going
    split <;> trivial
  | dropping => cases going
  | refreshing =>
    cases going
    trivial
  | writing | received | queueing | handing | applying | probed | updating =>
    simp only [advance] at going
    split_ifs at going <;> cases going <;> trivial

/-! ## Steps -/

section
variable {after : Hashing} (sound : Sound info hashing)
  (same : after.torrent.info = hashing.torrent.info /\ after.torrent.pieces = hashing.torrent.pieces /\
    after.torrent.dirtyChunks = hashing.torrent.dirtyChunks)
  (jobs : ∀ piece ∈ hashing.jobs, piece ∈ after.jobs ∨
    Exists fun valid => .applying piece valid ∈ after.tasks)
include sound same jobs

theorem Sound.spawn (tasks : ∀ task ∈ hashing.tasks, task ∈ after.tasks)
    (placed : ∀ task ∈ after.tasks, task ∈ hashing.tasks \/
      Placed hashing.torrent task) : Sound info after := by
  refine ⟨same.1.trans sound.known, by rw [same.2.1]; exact sound.sized, ?_, ?_⟩
  · intro task there
    apply placed_congr same.1
    rcases placed task there with old | new
    · exact sound.placed task old
    · exact new
  · intro piece inside
    have watched := sound.watched piece inside
    refine ⟨?_, ?_, ?_⟩
    · intro entry found incomplete all
      rw [same.2.1] at found
      have received := pieceAllDirty_of_fewer same.1 (fun req _ _ set => by rwa [same.2.2] at set) all
      rcases watched.owed entry found incomplete received with marked | ⟨task, there, owes⟩
      · exact .inl marked
      · exact .inr ⟨task, tasks task there, owes⟩
    · intro entry found marked
      rw [same.2.1] at found
      rcases watched.marked entry found marked with job | ⟨task, there, marks⟩
      · rcases jobs piece job with kept | ⟨_, there⟩
        · exact .inl kept
        · exact .inr ⟨_, there, rfl⟩
      · exact .inr ⟨task, tasks task there, marks⟩
    · intro entry found complete marked
      rw [same.2.1] at found
      rcases watched.settled entry found complete marked with ⟨valid, there⟩
      exact ⟨valid, tasks _ there⟩

theorem Sound.begin (tasks : after.tasks = hashing.tasks ++ [task]) (placed : Placed hashing.torrent task) :
    Sound info after := by
  refine sound.spawn same jobs (fun other there => ?_) fun other there => ?_
  · rw [tasks]
    exact mem_append_left _ there
  · rw [tasks] at there
    rcases mem_append.mp there with old | new
    · exact .inl old
    rw [mem_singleton.mp new]
    exact .inr placed

end

theorem Sound.advance (sound : Sound info hashing) (countable : info.Countable)
    (member : task ∈ hashing.tasks) (accepted : hashing.Accepted (.advance task fine)) :
    Sound info (hashing.afterSection task fine) := by
  have frame := advance_frame task hashing.torrent fine
  refine ⟨frame.1.trans sound.known, frame.2.trans sound.sized, ?_, ?_⟩
  · intro other there
    rcases mem_append.mp there with old | new
    · exact placed_congr frame.1 (sound.placed other (mem_of_mem_erase old))
    · exact placed_next (mem_toList.mp new)
  · intro piece inside
    by_cases own : task.piece = piece
    · subst own
      exact watched_own sound.known accepted inside (sound.watched _ inside)
    · exact watched_other sound countable member fine inside own

theorem Sound.step {after : Hashing} (sound : Sound info hashing) (countable : info.Countable)
    {label : HashingLabel} (accepted : hashing.Accepted label)
    (taken : hashing.step label = some after) : Sound info after := by
  cases label with
  | receive index start =>
    have same := beginChunkWrite_same hashing.torrent (hashing.torrent.reqIndex index start)
    simp only [Hashing.step] at taken
    split at taken
    · cases taken
      exact sound.begin same (fun _ job => Or.inl job) rfl accepted
    · cases taken
      exact sound.spawn same (fun _ job => Or.inl job) (fun _ there => there) (fun _ there => Or.inl there)
  | fetch | refresh =>
    cases taken
    exact sound.begin ⟨rfl, rfl, rfl⟩ (fun _ job => Or.inl job) rfl trivial
  | takeResult piece valid =>
    rcases ite_none_right_eq_some.mp taken with ⟨_, ⟨⟩⟩
    refine sound.begin ⟨rfl, rfl, rfl⟩ (fun other job => ?_) rfl trivial
    by_cases same : other = piece
    · subst same
      exact .inr ⟨valid, mem_append_right _ (mem_singleton_self _)⟩
    · exact .inl ((mem_erase_of_ne same).mpr job)
  | advance =>
    rcases ite_none_right_eq_some.mp taken with ⟨member, ⟨⟩⟩
    exact sound.advance countable member accepted

theorem step_info {after : Hashing} {label : HashingLabel}
    (taken : hashing.step label = some after) : after.torrent.info = hashing.torrent.info := by
  cases label with
  | receive index start =>
    have same := beginChunkWrite_same hashing.torrent (hashing.torrent.reqIndex index start)
    simp only [Hashing.step] at taken
    split at taken <;> rw [<- Option.some.inj taken] <;> exact same.1
  | fetch | refresh =>
    cases taken
    rfl
  | takeResult =>
    rcases ite_none_right_eq_some.mp taken with ⟨_, ⟨⟩⟩
    rfl
  | advance task fine =>
    rcases ite_none_right_eq_some.mp taken with ⟨_, ⟨⟩⟩
    exact (advance_frame task hashing.torrent fine).1

/-! ## Runs -/

theorem sound_opened (info : Info) (complete : Nat -> Bool) (downloadAll : Bool) (live : List (Finset Nat)) :
    Sound info { torrent := ({} : Torrent).setInfo info complete downloadAll live } := by
  have entries : ∀ (piece : Nat) (entry : PieceEntry),
      (({} : Torrent).setInfo info complete downloadAll live).pieces[piece]? = some entry ->
      entry.checking = false := by
    intro piece entry found
    rw [setInfo_pieces, getElem?_map, map_eq_some_iff] at found
    rcases found with ⟨_, _, rfl⟩
    rfl
  refine ⟨rfl, ?_, nofun, fun piece _ => ⟨?_, ?_, ?_⟩⟩
  · rw [setInfo_pieces, length_map, length_range]
  · intro entry found _ all
    rw [pieceAllDirty_iff] at all
    have first := all.2.2 _ (Nat.le_refl _) all.2.1
    rw [setInfo_dirtyChunks] at first
    exact absurd first (by
      rw [Bool.not_eq_true]
      exact contains_init_new _ _)
  · intro entry found marked
    rw [entries piece entry found] at marked
    cases marked
  · intro entry found _ marked
    rw [entries piece entry found] at marked
    cases marked

theorem sound_of_run {labels : List HashingLabel} (run : machine.RunsTo Accepted labels hashing) :
    Exists fun info => hashing.torrent.info = some info /\ (info.Countable -> Sound info hashing) := by
  refine run.stateInvariant (motive := fun state => Exists fun info =>
    state.torrent.info = some info /\ (info.Countable -> Sound info state)) ?_ ?_
  · rintro state ⟨info, complete, downloadAll, live, rfl⟩
    exact ⟨info, rfl, fun _ => sound_opened info complete downloadAll live⟩
  · rintro state label after ⟨info, known, sound⟩ accepted taken
    exact ⟨info, (step_info taken).trans known,
      fun countable => (sound countable).step countable accepted taken⟩

/-- In every run whose steps are accepted, in a torrent whose blocks can be
counted, a piece that no task is working on is complete and not being checked,
or can be asked for, or is being checked by a job that is there. -/
theorem not_stuck_of_accepted {labels : List HashingLabel} {hashing : Hashing}
    (run : machine.RunsTo Accepted labels hashing)
    (countable : forall info, hashing.torrent.info = some info -> info.Countable) {piece : Nat}
    (idle : forall task, task ∈ hashing.tasks -> task.piece ≠ piece) : hashing.NotStuck piece := by
  rcases sound_of_run run with ⟨info, known, sound⟩
  have fits := countable info known
  have sound := sound fits
  intro entry found
  have inside : piece < info.numPieces := by
    rw [<- sound.sized]
    exact (List.getElem?_eq_some_iff.mp found).1
  have watched := sound.watched piece inside
  constructor
  · intro incomplete
    by_cases all : hashing.torrent.pieceAllDirty piece = true
    · right
      have marked : entry.checking = true := by
        rcases watched.owed entry found incomplete all with marked | ⟨task, there, owes⟩
        · exact marked
        · exact absurd (piece_of_owes owes) (idle task there)
      refine ⟨marked, ?_⟩
      rcases watched.marked entry found marked with job | ⟨task, there, marks⟩
      · exact job
      · exact absurd (piece_of_marks marks) (idle task there)
    · left
      exact requestable_of_not_received known fits inside all
  · intro complete
    rw [<- Bool.not_eq_true]
    intro marked
    rcases watched.settled entry found complete marked with ⟨_, there⟩
    exact idle _ there rfl

def oneBlock : Hashing where
  torrent := ({} : Torrent).setInfo ⟨4, 4⟩ (fun _ => false) true []

theorem init_oneBlock : machine.init oneBlock :=
  ⟨⟨4, 4⟩, fun _ => false, true, [], rfl⟩

/-- The block arrives, the piece is marked, and its job goes to the pool. -/
def blockChecked (taken : Bool) : List HashingLabel :=
  [.receive 0 0 4, .advance (.writing 0 0 0 4) true, .advance (.received 0) true,
    .advance (.queueing 0) true, .advance (.handing 0) taken]

def afterBlock (taken : Bool) : Hashing :=
  (machine.exec oneBlock (blockChecked taken)).getD oneBlock

theorem not_stuck_afterBlock : machine.RunsTo Accepted (blockChecked true) (afterBlock true) ∧
      (afterBlock true).NotStuck 0 := by
  have run : machine.RunsTo Accepted (blockChecked true) (afterBlock true) :=
    .of_exec init_oneBlock ⟨rfl, trivial, trivial, rfl, rfl, trivial⟩ rfl
  have fits : Info.Countable ⟨4, 4⟩ :=
    ⟨⟨by decide, by decide, by decide⟩, by decide⟩
  refine ⟨run, not_stuck_of_accepted run ?_ ?_⟩
  · intro info known
    cases known
    exact fits
  · intro task there
    exact absurd there not_mem_nil

/-- The pool refuses the job.  Nothing is in progress any more; the piece is not
complete, its only block counts as received, and it is not being checked. -/
theorem stuck_after_refused_job : machine.RunsTo Machine.always (blockChecked false) (afterBlock false) ∧
      (afterBlock false).tasks = [] ∧ (afterBlock false).jobs = [] ∧
      ¬ (afterBlock false).NotStuck 0 := by
  refine ⟨.of_exec init_oneBlock (Machine.permits_always _ _ _) rfl, rfl, rfl, ?_⟩
  intro fine
  rcases (fine _ rfl).1 rfl with ⟨req, _, high, clear⟩ | ⟨marked, _⟩
  · have first : req = 0 := Nat.lt_one_iff.mp high
    rw [first] at clear
    cases clear
  · cases marked

end Hashing
end TorrentPlayer.Core
