import TorrentPlayer.Core.PieceCheckRuns
import Mathlib.Data.Finset.Dedup
import Mathlib.Data.Finset.SDiff

namespace TorrentPlayer.Core

open Library List

/-!
# Completion in the table and in the storage

A piece is complete twice over: in the storage, under the lock of the storage,
and in the table of the torrent, under another lock.  A hash result changes both,
one after the other.  Everything else changes the storage and then has
`refresh_piece_completion` of `wt-core/src/lib.rs` copy its answer: when Direct
Play drops pieces from memory, a callback asks about each of them from a thread
of its own, and after a change of selection all pieces are asked about.

The exception are the startup pieces of Direct Play.  A complete one is copied to
the disk by another thread, which then sets its completion once more and tells
nobody.

Every section under one lock is a step.  The sections of a refresh after the
storage has answered, and the last sections of a hash result, are those of
`HashTask`.
-/

/-- A part of a hash result or of a refresh that is still to be done. -/
inductive FlagTask where
  /-- A result was taken, and `mark_complete` is next if it is `correct`. -/
  | judging (piece : Nat) (correct : Bool)
  /-- The piece is not valid, and `mark_not_complete` is next. -/
  | refusing (piece : Nat)
  /-- A refresh has still to ask the storage.  A thread that refreshes several
  pieces has a task for each; it takes them one by one, in one of the orders. -/
  | asking (piece : Nat)
  /-- A startup piece waits to be written to the disk, or is being written. -/
  | saving (piece : Nat)
  | check (task : HashTask)
  deriving DecidableEq

/-- The torrent and the completion that its storage keeps.  `onStreamEvict` says
that the callback is set. -/
structure CompletionFlags where
  torrent : Torrent
  stream : Bool
  onStreamEvict : Bool
  completed : Finset Nat
  startupPieces : List Nat := []
  startupSaved : Finset Nat := ∅
  tasks : List FlagTask := []

namespace CompletionFlags

variable (state : CompletionFlags)

def completion (piece : Nat) : Bool :=
  decide (piece ∈ state.completed)

/-- A complete piece is not given up by `mark_not_complete`. -/
def markNotComplete (completed : Finset Nat) (piece : Nat) : Finset Nat :=
  if piece ∈ completed then completed else completed.erase piece

/-- A refresh gives a piece up whose data is gone, before it looks at the table
again. -/
def giveUp (completed : Finset Nat) : HashTask -> Finset Nat
  | .probed piece _ true => markNotComplete completed piece
  | _ => completed

/-- The piece lies in none of the replaced files, given by offset and length. -/
def outside (info : Info) (replaced : List (Nat × Nat)) (piece : Nat) : Bool :=
  replaced.all (fun file =>
    decide (piece * info.pieceLength + info.pieceLen piece <= file.1 ∨
      file.1 + file.2 <= piece * info.pieceLength))

/-- What is still complete after a change of selection. -/
def reselected (replaced : List (Nat × Nat)) : Finset Nat :=
  match state.torrent.info with
  | none => state.completed
  | some info => state.completed.filter (fun piece => outside info replaced piece = true)

def replace (task : FlagTask) (next : List FlagTask) : CompletionFlags :=
  { state with tasks := state.tasks.erase task ++ next }

/-- `room` has the pieces that are in memory and fit into the queue. -/
def saveStartupPiece (room : Finset Nat) (piece : Nat) : List FlagTask :=
  if piece ∈ state.startupPieces /\ piece ∉ state.startupSaved /\ .saving piece ∉ state.tasks /\
    piece ∈ room then [.saving piece] else []

/-- A section of a hash result, a refresh or a save.  `fine` is what the environment
decides: that the storage accepts the piece, that it was written, or what it is for
`HashTask`. -/
def advance (fine : Bool) (room : Finset Nat) : FlagTask -> CompletionFlags
  | .judging piece correct =>
    if correct && fine then
      let saves := if state.stream then state.saveStartupPiece room piece else []
      let callback := if state.stream && state.onStreamEvict then [.asking piece] else []
      { state with completed := insert piece state.completed }.replace (.judging piece correct)
        (.check (.applying piece true) :: (saves ++ callback))
    else state.replace (.judging piece correct) [.refusing piece]
  | .refusing piece =>
    { state with completed := markNotComplete state.completed piece }.replace (.refusing piece)
      [.check (.applying piece false)]
  | .asking piece =>
    state.replace (.asking piece) [.check (.refreshing piece (state.completion piece))]
  | .saving piece =>
    if fine then
      let saved := { state with
        completed := insert piece state.completed
        startupSaved := insert piece state.startupSaved }
      saved.replace (.saving piece) ((state.startupPieces.filter (· ∈ saved.completed)).flatMap
        (saved.saveStartupPiece room))
    else state.replace (.saving piece) []
  | .check task =>
    { state with
      torrent := (task.advance state.torrent fine).torrent
      completed := giveUp state.completed task }.replace (.check task)
        ((task.advance state.torrent fine).next.toList.map .check)

inductive Label where
  | result (piece : Nat) (correct : Bool)
  /-- A piece is compared with its storage, by a reader or a request. -/
  | refresh (piece : Nat)
  /-- Direct Play makes room for a slot.  The room may not be enough in the end;
  then the call fails, and the list of what it has dropped is lost. -/
  | evict (victims : List Nat) (busy : Bool)
  | select (replaced : List (Nat × Nat))
  | advance (task : FlagTask) (fine : Bool) (room : Finset Nat := ∅)

/-- A victim stays complete if it was saved. -/
def dropped (victims : List Nat) : List Nat :=
  victims.filter (· ∉ state.startupSaved)

def step : Label -> Option CompletionFlags
  | .result piece correct =>
    if state.torrent.info.any (fun info => piece < info.numPieces) then
      some { state with tasks := state.tasks ++ [.judging piece correct] }
    else none
  | .refresh piece => some { state with tasks := state.tasks ++ [.asking piece] }
  | .evict victims busy =>
    if state.stream then
      some { state with
        completed := state.completed \ (state.dropped victims).toFinset
        tasks := state.tasks ++
          (if state.onStreamEvict && !busy then (state.dropped victims).map .asking else []) }
    else none
  | .select replaced =>
    if state.stream then none
    else
      some { state with
        completed := state.reselected replaced
        tasks := state.tasks ++ (List.range state.torrent.numPieces).map .asking }
  | .advance task fine room =>
    if task ∈ state.tasks then some (state.advance fine room task) else none

/-- The info has just been set, with what the storage had. -/
def machine : Machine CompletionFlags Label where
  init := fun state => Exists fun info => Exists fun downloadAll => Exists fun live =>
    state.torrent = ({} : Torrent).setInfo info (fun piece => state.completion piece) downloadAll live /\
      state.tasks = []
  step := step

end CompletionFlags

/-! ## Answers of the storage -/

/-- What the storage answered about a piece, as far as it is still to be used. -/
def HashTask.answer : HashTask -> Option (Nat × Bool)
  | .applying piece valid => some (piece, valid)
  | .refreshing piece complete | .probed piece complete _ | .updating piece complete _ =>
    some (piece, complete)
  | .writing _ _ _ _ | .received _ | .queueing _ | .handing _ | .fetching _ _ _
  | .fetchWriting _ _ _ | .dropping _ => none

def FlagTask.answer : FlagTask -> Option (Nat × Bool)
  | .check task => task.answer
  | .judging _ _ | .refusing _ | .asking _ | .saving _ => none

namespace HashTask

variable {task : HashTask} {torrent : Torrent} {fine : Bool} {piece : Nat} {complete : Bool}

theorem answer_of_enters (enters : task.enters = some (piece, complete)) :
    task.answer = some (piece, complete) := by
  cases task with
  | applying | updating => exact enters
  | writing _ _ _ _ | received _ | queueing _ | handing _ | fetching _ _ _ | fetchWriting _ _ _
  | dropping | refreshing | probed => cases enters

theorem answer_of_next {next : HashTask} (isNext : (task.advance torrent fine).next = some next)
    (answer : next.answer = some (piece, complete)) : task.answer = some (piece, complete) := by
  cases task with
  | writing | received | fetching | fetchWriting | updating =>
    simp only [advance] at isNext
    split_ifs at isNext <;> cases isNext <;> cases answer
  | queueing | handing =>
    simp only [advance] at isNext
    split at isNext <;> cases isNext <;> cases answer
  | applying =>
    simp only [advance] at isNext
    split_ifs at isNext
    cases isNext
    cases answer
  | dropping => cases isNext
  | refreshing =>
    cases isNext
    exact answer
  | probed =>
    simp only [advance] at isNext
    rcases Option.ite_none_left_eq_some.mp isNext with ⟨_, ⟨⟩⟩
    exact answer

theorem answer_used (sized : torrent.pieces.length = torrent.info.elim 0 Info.numPieces)
    (inside : piece < torrent.pieces.length) (answer : task.answer = some (piece, complete)) :
    (Exists fun next => (task.advance torrent fine).next = some next /\ next.answer =
      some (piece, complete)) \/ (task.advance torrent fine).torrent.pieceComplete piece = complete := by
  cases task with
  | applying | updating => exact .inr (Hashing.pieceComplete_of_enters sized inside answer)
  | refreshing => exact .inl ⟨_, rfl, answer⟩
  | probed =>
    cases answer
    simp only [advance]
    split
    · rename_i unchanged
      right
      rw [Bool.and_eq_true, getElem?_eq_getElem inside, Option.all_some,
        Bool.and_eq_true, beq_iff_eq] at unchanged
      rw [Torrent.pieceComplete, getElem?_eq_getElem inside]
      exact unchanged.2.1
    · exact .inl ⟨_, rfl, rfl⟩
  | writing _ _ _ _ | received _ | queueing _ | handing _ | fetching _ _ _ | fetchWriting _ _ _
  | dropping => cases answer

end HashTask

namespace CompletionFlags

def answered (tasks : List FlagTask) (piece : Nat) : Bool :=
  tasks.any (fun task => task.answer.any (fun answer => answer.1 == piece))

/-- Some task will ask the storage about the piece, or has its answer. -/
def Awaited (tasks : List FlagTask) (piece : Nat) : Prop :=
  Exists fun task => task ∈ tasks /\
    (task = .asking piece ∨ Exists fun complete => task.answer = some (piece, complete))

structure InStep (state : CompletionFlags) : Prop where
  sized : state.torrent.pieces.length = state.torrent.info.elim 0 Info.numPieces
  /-- No answer is out of date. -/
  current : ∀ task piece complete, task ∈ state.tasks ->
    task.answer = some (piece, complete) -> complete = state.completion piece
  agrees : ∀ piece < state.torrent.pieces.length,
    state.torrent.pieceComplete piece = state.completion piece ∨ Awaited state.tasks piece

/-- The completion of a piece changes in the storage only while no task has an
answer about the piece; an eviction that fails, or has no callback, drops no
complete piece; a result that is not valid is for a piece that the storage does
not have; and a piece that was saved is still complete, or will be asked about. -/
def Careful (state : CompletionFlags) : Label -> Prop
  | .evict victims busy => ∀ piece ∈ state.dropped victims, piece ∈ state.completed ->
      answered state.tasks piece = false /\ busy = false /\ state.onStreamEvict = true
  | .select replaced => ∀ piece ∈ state.completed,
      piece ∈ state.reselected replaced ∨ answered state.tasks piece = false
  | .advance (.judging piece true) true _ =>
    piece ∈ state.completed ∨ answered state.tasks piece = false
  | .advance (.refusing piece) _ _ => piece ∉ state.completed
  | .advance (.saving piece) true _ =>
    piece ∈ state.completed ∨ answered state.tasks piece = false /\ .asking piece ∈ state.tasks
  | .result _ _ | .refresh _ | .advance (.judging _ false) _ _ | .advance (.judging _ true) false _
  | .advance (.asking _) _ _ | .advance (.saving _) false _ | .advance (.check _) _ _ => True

variable {state after : CompletionFlags}
variable {tasks : List FlagTask}
variable {task : FlagTask} {more : List FlagTask} {piece : Nat} (completed : Finset Nat)

theorem not_answered (none_ : answered tasks piece = false)
    (member : task ∈ tasks) (complete : Bool) : task.answer ≠ some (piece, complete) := by
  intro answer
  rw [answered, any_eq_false] at none_
  refine none_ task member ?_
  rw [answer]
  exact beq_self_eq_true piece

theorem markNotComplete_eq (piece : Nat) : markNotComplete completed piece = completed := by
  unfold markNotComplete
  split
  · rfl
  rename_i missing
  exact Finset.erase_eq_of_notMem missing

theorem giveUp_eq (task : HashTask) : giveUp completed task = completed := by
  unfold giveUp
  split
  · exact markNotComplete_eq _ _
  · rfl

theorem Awaited.mono (awaited : Awaited tasks piece)
    (kept : ∀ task ∈ tasks, task ∈ more) : Awaited more piece := by
  rcases awaited with ⟨task, member, why⟩
  exact ⟨task, kept task member, why⟩

/-- The storage changes, and the tasks.  A task that awaits a piece stays, a new
answer is up to date, and a piece whose completion changes has no answer yet, and
is awaited afterwards. -/
theorem InStep.change (inStep : InStep state) {completed : Finset Nat}
    (kept : ∀ piece, Awaited state.tasks piece -> Awaited tasks piece)
    (current : ∀ task piece complete, task ∈ tasks -> task.answer = some (piece, complete) ->
      task ∈ state.tasks \/ complete = decide (piece ∈ completed))
    (changes : ∀ piece, (piece ∈ completed <-> piece ∈ state.completed) \/
      answered state.tasks piece = false /\ (piece < state.torrent.pieces.length -> Awaited tasks piece)) :
    InStep { state with completed := completed, tasks := tasks } := by
  have same : ∀ piece, (piece ∈ completed <-> piece ∈ state.completed) ->
      decide (piece ∈ completed) = state.completion piece :=
    fun piece iff => decide_eq_decide.mpr iff
  refine ⟨inStep.sized, ?_, ?_⟩
  · intro task piece complete member answer
    show complete = decide (piece ∈ completed)
    rcases current task piece complete member answer with old | isCurrent
    · rcases changes piece with unchanged | ⟨none_, _⟩
      · rw [same piece unchanged]
        exact inStep.current task piece complete old answer
      · exact absurd answer (not_answered none_ old complete)
    · exact isCurrent
  · intro piece inside
    show state.torrent.pieceComplete piece = decide (piece ∈ completed) \/ Awaited tasks piece
    rcases changes piece with unchanged | ⟨_, awaited⟩
    · rw [same piece unchanged]
      exact (inStep.agrees piece inside).imp id (kept piece)
    · exact .inr (awaited inside)

/-! ## Steps -/

theorem InStep.spawn (inStep : InStep state) (blank : ∀ task ∈ tasks, task.answer = none) :
    InStep { state with tasks := state.tasks ++ tasks } := by
  refine inStep.change (fun piece awaited => ?_) ?_ fun piece => Or.inl Iff.rfl
  · exact awaited.mono fun task => mem_append_left _
  · intro task piece complete member answer
    rcases mem_append.mp member with old | new
    · exact .inl old
    rw [blank task new] at answer
    cases answer

theorem answer_asking {pieces : List Nat}
    (member : task ∈ pieces.map FlagTask.asking) : task.answer = none := by
  rcases mem_map.mp member with ⟨piece, _, rfl⟩
  rfl

/-- Pieces lose their completion while nothing has an answer about them, and are
all asked about. -/
theorem InStep.lose (inStep : InStep state) {completed : Finset Nat} (pieces : List Nat)
    (fewer : completed ⊆ state.completed)
    (lost : ∀ piece ∈ state.completed, piece ∈ completed \/ answered state.tasks piece = false /\
        (piece < state.torrent.pieces.length -> piece ∈ pieces)) : InStep { state with
      completed := completed, tasks := state.tasks ++ pieces.map FlagTask.asking } := by
  refine inStep.change (fun piece awaited => ?_) ?_ ?_
  · exact awaited.mono fun task => mem_append_left _
  · intro task piece complete member answer
    rcases mem_append.mp member with old | new
    · exact .inl old
    rw [answer_asking new] at answer
    cases answer
  · intro piece
    by_cases was : piece ∈ state.completed
    · rcases lost piece was with still | ⟨none_, asked⟩
      · exact .inl ⟨fun _ => was, fun _ => still⟩
      refine .inr ⟨none_, fun inside => ⟨.asking piece, ?_, Or.inl rfl⟩⟩
      exact mem_append_right _ (mem_map_of_mem (asked inside))
    · exact .inl ⟨fun is => fewer is, fun impossible => absurd impossible was⟩

theorem InStep.evict (inStep : InStep state) {victims : List Nat} {busy : Bool}
    (careful : Careful state (.evict victims busy)) : InStep { state with
      completed := state.completed \ (state.dropped victims).toFinset
      tasks := state.tasks ++
        (if state.onStreamEvict && !busy then (state.dropped victims).map .asking else []) } := by
  have fewer : state.completed \ (state.dropped victims).toFinset ⊆ state.completed := Finset.sdiff_subset
  have dropped : ∀ piece ∈ state.completed,
      piece ∈ state.completed \ (state.dropped victims).toFinset \/ piece ∈ state.dropped victims := by
    intro piece was
    by_cases victim : piece ∈ state.dropped victims
    · exact .inr victim
    left
    rw [Finset.mem_sdiff, mem_toFinset]
    exact ⟨was, victim⟩
  split
  · refine inStep.lose _ fewer (fun piece was => ?_)
    refine (dropped piece was).imp id fun victim => ?_
    exact ⟨(careful piece victim was).1, fun _ => victim⟩
  -- Without a callback no victim was complete.
  rename_i unheard
  refine inStep.lose [] fewer fun piece was => ?_
  refine (dropped piece was).imp id fun victim => ?_
  rcases careful piece victim was with ⟨_, notBusy, heard⟩
  rw [notBusy, heard] at unheard
  exact absurd rfl unheard

theorem reselected_subset (state : CompletionFlags) (replaced : List (Nat × Nat)) :
    state.reselected replaced ⊆ state.completed := by
  unfold reselected
  split
  · exact Finset.Subset.refl _
  · exact Finset.filter_subset _ _

theorem InStep.select (inStep : InStep state) {replaced : List (Nat × Nat)}
    (careful : Careful state (.select replaced)) : InStep { state with
      completed := state.reselected replaced
      tasks := state.tasks ++ (List.range state.torrent.numPieces).map .asking } := by
  refine inStep.lose _ (reselected_subset state replaced) fun piece was => ?_
  refine (careful piece was).imp id (fun none_ => ⟨none_, fun inside => ?_⟩)
  exact mem_range.mpr inside

theorem Awaited.erase (awaited : Awaited tasks piece) (other : task ≠ .asking piece)
    (blank : ∀ complete, task.answer ≠ some (piece, complete)) : Awaited (tasks.erase task) piece := by
  rcases awaited with ⟨waiting, member, why⟩
  refine ⟨waiting, (mem_erase_of_ne ?_).mpr member, why⟩
  rintro rfl
  rcases why with asks | ⟨complete, answer⟩
  · exact other asks
  · exact blank complete answer

theorem Awaited.append (awaited : Awaited tasks piece) : Awaited (tasks ++ more) piece :=
  awaited.mono (fun _ => mem_append_left _)

theorem answer_saveStartupPiece {room : Finset Nat} (member : task ∈ state.saveStartupPiece room piece) :
    task.answer = none := by
  unfold saveStartupPiece at member
  split at member
  · rw [mem_singleton.mp member]
    rfl
  · cases member

section
variable (inStep : InStep state)
include inStep

/-- The storage takes a piece.  Its completion is on the way to the table, or will
be asked for. -/
theorem InStep.accept {piece : Nat} (other : ∀ asked, task ≠ .asking asked) (blank : task.answer = none)
    (fresh : ∀ new ∈ more, new.answer = none \/ new.answer = some (piece, true))
    (careful : piece ∈ state.completed \/
      answered state.tasks piece = false /\ Awaited (state.tasks.erase task ++ more) piece) :
    InStep { state with
      completed := insert piece state.completed
      tasks := state.tasks.erase task ++ more } := by
  refine inStep.change (fun asked awaited => (awaited.erase (other asked) ?_).append) ?_ ?_
  · rw [blank]
    nofun
  · intro task asked complete member answer
    rcases mem_append.mp member with old | new
    · exact .inl (mem_of_mem_erase old)
    rcases fresh task new with none_ | isNew
    · rw [none_] at answer
      cases answer
    · rw [isNew] at answer
      cases answer
      exact .inr (decide_eq_true (Finset.mem_insert_self _ _)).symm
  · intro asked
    by_cases here : asked = piece
    · rw [here]
      refine careful.imp (fun was => ?_) (fun ⟨none_, awaited⟩ => ⟨none_, fun _ => awaited⟩)
      rw [Finset.insert_eq_of_mem was]
    · left
      rw [Finset.mem_insert]
      exact or_iff_right here

theorem InStep.answer {piece : Nat} {next : HashTask}
    (fresh : next.answer = some (piece, state.completion piece))
    (asks : ∀ other, task = .asking other -> other = piece) (blank : task.answer = none) :
    InStep { state with tasks := state.tasks.erase task ++ [.check next] } := by
  refine inStep.change (fun other awaited => ?_) ?_ fun _ => Or.inl Iff.rfl
  · by_cases here : other = piece
    · rw [here]
      exact ⟨.check next, mem_append_right _ (mem_singleton_self _), Or.inr ⟨_, fresh⟩⟩
    · refine (awaited.erase ?_ ?_).append
      · intro isAsking
        exact here (asks other isAsking)
      · intro complete answer
        rw [blank] at answer
        cases answer
  · intro other asked complete member answer
    rcases mem_append.mp member with old | new
    · exact .inl (mem_of_mem_erase old)
    rw [mem_singleton] at new
    rw [new] at answer
    have both := Option.some.inj (fresh.symm.trans answer)
    cases both
    exact .inr rfl

/-- A section that works on the table. -/
theorem InStep.check {task : HashTask} {fine : Bool}
    (present : .check task ∈ state.tasks) : InStep { state with
      torrent := (task.advance state.torrent fine).torrent
      tasks := state.tasks.erase (.check task) ++
        (task.advance state.torrent fine).next.toList.map .check } := by
  have frame := Hashing.advance_frame task state.torrent fine
  refine ⟨?_, ?_, ?_⟩
  · rw [frame.1, frame.2]
    exact inStep.sized
  · intro other piece complete member answer
    rcases mem_append.mp member with old | new
    · exact inStep.current other piece complete (mem_of_mem_erase old) answer
    rcases mem_map.mp new with ⟨next, isNext, rfl⟩
    rw [Option.mem_toList] at isNext
    exact inStep.current _ piece complete present (HashTask.answer_of_next isNext answer)
  · intro piece inside
    have was : piece < state.torrent.pieces.length := by
      rw [<- frame.2]
      exact inside
    by_cases own : Exists fun complete => task.answer = some (piece, complete)
    · rcases own with ⟨complete, answer⟩
      have isCurrent := inStep.current _ piece complete present answer
      rcases HashTask.answer_used inStep.sized was answer with ⟨next, isNext, passed⟩ | entered
      · right
        refine ⟨.check next, mem_append_right _ (mem_map_of_mem ?_), Or.inr ⟨complete, passed⟩⟩
        exact Option.mem_toList.mpr isNext
      · exact .inl (entered.trans isCurrent)
    · have same : (task.advance state.torrent fine).torrent.pieceComplete piece =
          state.torrent.pieceComplete piece :=
        Hashing.pieceComplete_advance
          (fun complete enters => own ⟨complete, HashTask.answer_of_enters enters⟩)
      refine (inStep.agrees piece was).imp same.trans fun awaited => ?_
      have other : FlagTask.check task ≠ .asking piece := by nofun
      exact (awaited.erase other (fun complete answer => own ⟨complete, answer⟩)).append

theorem InStep.advance {fine : Bool} {room : Finset Nat} (present : task ∈ state.tasks)
    (careful : Careful state (.advance task fine room)) : InStep (state.advance fine room task) := by
  cases task with
  | judging piece correct =>
    have refused : InStep (state.replace (.judging piece correct) [.refusing piece]) := by
      refine inStep.change (fun other awaited => ?_) ?_ fun _ => Or.inl Iff.rfl
      · refine (awaited.erase ?_ ?_).append
        · nofun
        · nofun
      · intro task other complete member answer
        rcases mem_append.mp member with old | new
        · exact .inl (mem_of_mem_erase old)
        rw [mem_singleton] at new
        rw [new] at answer
        cases answer
    cases correct with
    | false => exact refused
    | true =>
      cases fine with
      | false => exact refused
      | true =>
        refine inStep.accept nofun rfl ?_ (careful.imp_right fun none_ => ⟨none_,
          .check (.applying piece true), mem_append_right _ mem_cons_self, Or.inr ⟨true, rfl⟩⟩)
        intro task member
        rcases mem_cons.mp member with rfl | called
        · exact .inr rfl
        left
        rcases mem_append.mp called with saves | asks
        · split at saves
          · exact answer_saveStartupPiece saves
          · cases saves
        · split at asks
          · rw [mem_singleton.mp asks]
            rfl
          · cases asks
  | refusing piece =>
    have missing : piece ∉ state.completed := careful
    have fresh : (HashTask.applying piece false).answer = some (piece, state.completion piece) := by
      rw [completion, decide_eq_false missing]
      rfl
    simp only [CompletionFlags.advance, markNotComplete_eq]
    refine inStep.answer fresh ?_ rfl
    nofun
  | asking =>
    refine inStep.answer rfl ?_ rfl
    intro other isAsking
    cases isAsking
    rfl
  | saving piece =>
    have other : ∀ asked, FlagTask.saving piece ≠ .asking asked := nofun
    cases fine with
    | false =>
      refine inStep.change (fun asked awaited => (awaited.erase (other asked) ?_).append) ?_
        fun _ => Or.inl Iff.rfl
      · nofun
      · intro task asked complete member _
        rw [append_nil] at member
        exact .inl (mem_of_mem_erase member)
    | true =>
      have saved : InStep { state with startupSaved := insert piece state.startupSaved } :=
        ⟨inStep.sized, inStep.current, inStep.agrees⟩
      refine saved.accept other rfl (fun new member => ?_) (careful.imp_right fun ⟨none_, asks⟩ =>
        ⟨none_, .asking piece, mem_append_left _ ((mem_erase_of_ne (other piece).symm).mpr asks), Or.inl rfl⟩)
      rcases mem_flatMap.mp member with ⟨retried, _, queued⟩
      exact .inl (answer_saveStartupPiece queued)
  | check =>
    simp only [CompletionFlags.advance, giveUp_eq]
    exact inStep.check present

end

theorem InStep.step {label : Label} (inStep : InStep state) (careful : Careful state label)
    (moved : CompletionFlags.step state label = some after) : InStep after := by
  cases label with
  | result =>
    rcases Option.ite_none_right_eq_some.mp moved with ⟨_, ⟨⟩⟩
    refine inStep.spawn fun task member => ?_
    rw [mem_singleton.mp member]
    rfl
  | refresh =>
    cases moved
    refine inStep.spawn fun task member => ?_
    rw [mem_singleton.mp member]
    rfl
  | evict =>
    rcases Option.ite_none_right_eq_some.mp moved with ⟨_, ⟨⟩⟩
    exact inStep.evict careful
  | select =>
    rcases Option.ite_none_left_eq_some.mp moved with ⟨_, ⟨⟩⟩
    exact inStep.select careful
  | advance =>
    rcases Option.ite_none_right_eq_some.mp moved with ⟨present, ⟨⟩⟩
    exact inStep.advance present careful

theorem inStep_init (initial : machine.init state) : InStep state := by
  rcases initial with ⟨info, downloadAll, live, isTorrent, idle⟩
  have entries : state.torrent.pieces = (List.range info.numPieces).map (fun piece =>
      { priority := if downloadAll then .normal else .none
        basePriority := if downloadAll then .normal else .none
        complete := state.completion piece }) := by
    rw [isTorrent, Torrent.setInfo_pieces]
  refine ⟨?_, ?_, ?_⟩
  · rw [entries, length_map, length_range, isTorrent]
    rfl
  · intro task piece complete member
    rw [idle] at member
    cases member
  · intro piece inside
    left
    rw [entries, length_map, length_range] at inside
    rw [Torrent.pieceComplete, entries, getElem?_map, getElem?_range inside]
    rfl

/-- In every run in which the storage does not change behind an answer, the table
has the completion of the storage once nothing is in progress. -/
theorem flags_agree {labels : List Label} (run : machine.RunsTo Careful labels state)
    (idle : state.tasks = []) : forall piece, piece < state.torrent.numPieces ->
      state.torrent.pieceComplete piece = state.completion piece := by
  have inStep : InStep state :=
    run.stateInvariant (fun _ initial => inStep_init initial)
      (fun _ _ _ inStep careful moved => inStep.step careful moved)
  intro piece inside
  rcases inStep.agrees piece inside with agrees | ⟨task, member, _⟩
  · exact agrees
  rw [idle] at member
  cases member

instance (state : CompletionFlags) (label : Label) : Decidable (Careful state label) :=
  match label with
  | .evict victims _ => inferInstanceAs (Decidable (∀ piece ∈ state.dropped victims, _))
  | .select _ => inferInstanceAs (Decidable (∀ piece ∈ state.completed, _))
  | .advance (.judging _ true) true _ => inferInstanceAs (Decidable (_ ∨ _ = false))
  | .advance (.refusing piece) _ _ => inferInstanceAs (Decidable (piece ∉ state.completed))
  | .advance (.saving _) true _ => inferInstanceAs (Decidable (_ ∨ _ = false /\ _ ∈ _))
  | .result _ _ | .refresh _ | .advance (.judging _ false) _ _ | .advance (.judging _ true) false _
  | .advance (.asking _) _ _ | .advance (.saving _) false _ | .advance (.check _) _ _ => isTrue trivial

def directPlay : CompletionFlags where
  torrent := ({} : Torrent).setInfo { pieceLength := 1, totalLength := 2 } (fun _ => false) true []
  stream := true
  onStreamEvict := true
  completed := ∅
  startupPieces := [0]

theorem directPlay_init : machine.init directPlay :=
  ⟨{ pieceLength := 1, totalLength := 2 }, true, [], rfl, rfl⟩

/-- The sections of a refresh that finds the piece as it is in the table. -/
def refreshed (piece : Nat) (complete : Bool) : List Label :=
  [.advance (.asking piece) true, .advance (.check (.refreshing piece complete)) true,
    .advance (.check (.probed piece complete false)) true]

/-- A piece passes its check; a startup piece is queued. -/
def checked (piece : Nat) : List Label :=
  [.result piece true, .advance (.judging piece true) true {piece},
    .advance (.check (.applying piece true)) true] ++ refreshed piece true

/-- A refresh finds that the piece is gone. -/
def lost (piece : Nat) : List Label :=
  [.advance (.asking piece) true, .advance (.check (.refreshing piece false)) true,
    .advance (.check (.probed piece false false)) true,
    .advance (.check (.updating piece false false)) true, .advance (.check (.dropping piece)) true]

/-- Both pieces pass their check and are dropped from memory; piece 0 was saved. -/
def checkedThenDropped : List Label :=
  checked 0 ++ [.advance (.saving 0) true] ++ checked 1 ++ [.evict [0, 1] false] ++ lost 1

theorem flags_agree_checkedThenDropped :
    let reached := (machine.exec directPlay checkedThenDropped).getD directPlay
    reached.tasks = [] ∧ forall piece, piece < reached.torrent.numPieces ->
      reached.torrent.pieceComplete piece = reached.completion piece := by
  have run : machine.RunsTo Careful checkedThenDropped
      ((machine.exec directPlay checkedThenDropped).getD directPlay) :=
    .of_exec directPlay_init (by decide +kernel) rfl
  exact ⟨by decide +kernel, flags_agree run (by decide +kernel)⟩

/-- Piece 0 is dropped between the two halves of its hash result.  Both
callbacks find the table right, and then the result enters its success.  Or it is
dropped while it is saved, and the table learns that it is gone before the save
makes it complete again. -/
theorem success_entered_after_eviction :
    let labels := [.result 0 true, .advance (.judging 0 true) true, .evict [0] false] ++
      refreshed 0 false ++ refreshed 0 false ++ [.advance (.check (.applying 0 true)) true]
    let reached := (machine.exec directPlay labels).getD directPlay
    let saved := checked 0 ++ [.evict [0] false] ++ lost 0 ++ [.advance (.saving 0) true]
    let after := (machine.exec directPlay saved).getD directPlay
    machine.RunsTo Machine.always labels reached ∧ reached.tasks = [] ∧
      reached.torrent.pieceComplete 0 = true ∧ reached.completion 0 = false ∧
    machine.RunsTo Machine.always saved after ∧ after.tasks = [] ∧
      after.torrent.pieceComplete 0 = false ∧ after.completion 0 = true := by
  refine ⟨.of_exec directPlay_init (machine.permits_always _ _) rfl, ?_, ?_, ?_,
    .of_exec directPlay_init (machine.permits_always _ _) rfl, ?_⟩ <;> decide +kernel

end CompletionFlags
end TorrentPlayer.Core
