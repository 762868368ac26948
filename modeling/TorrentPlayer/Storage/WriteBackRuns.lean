import TorrentPlayer.Storage.PieceStates

namespace TorrentPlayer.Storage

open Library StorageInner World Option FiniteMap

/-!
# Accepted bytes are not lost

Every section of every call changes at most the state of a few pieces, and each
such change is one of those that a stored piece allows.  So an accepted byte is
in the files or in a slot under a dirty span, in every state of every run, and
a read returns it.

The one thing to be ruled out is that a slot is made anew while a fill of the
piece has read some of the files already.  The fill would put what it read into
the new slot, also where the files have changed since.
-/

def contentOf (content : Nat -> UInt8) (inner : StorageInner) (piece : Nat) : Nat -> UInt8 :=
  fun position => content (inner.address piece position)

namespace SameShape

variable {before after : StorageInner}
variable (shape : SameShape before after)
include shape

theorem address : after.address = before.address := by
  funext piece position
  rw [StorageInner.address, StorageInner.address, shape.chunkLength]

theorem pieceLength : after.pieceLength = before.pieceLength := by
  funext piece
  rw [StorageInner.pieceLength, StorageInner.pieceLength, shape.chunkLength, shape.totalLength]

theorem contentOf (content : Nat -> UInt8) : contentOf content after = contentOf content before := by
  funext piece position
  rw [Storage.contentOf, Storage.contentOf, shape.address]

end SameShape

namespace World

def piece (world : World) (index : Nat) : PieceState where
  view := world.inner.view index
  disk := fun position => world.disk (world.inner.address index position)
  accepted := world.accepted index

end World

namespace Task

/-- The call writes the piece to the files; nobody else does. -/
def Owns (piece : Nat) : Task -> Prop
  | .flushing other _ _ _ _ => other = piece
  | .through call _ => call.piece = piece
  | .write _ _ | .owned _ _ | .flush _ _ | .filling _ _ _ _ _ | .reading _ _ _ => False

/-- The call fills the slot of the piece, and has read some of the files. -/
def Filling (piece : Nat) : Task -> Prop
  | .filling call _ _ _ begun => call.piece = piece /\ begun = true
  | .write _ _ | .owned _ _ | .flush _ _ | .flushing _ _ _ _ _ | .through _ _ | .reading _ _ _ =>
    False

end Task

section Calls
variable (content : Nat -> UInt8) (world : World)

def WriteCall.Ok (call : WriteCall) : Prop :=
  PieceState.Brings (contentOf content world.inner call.piece)
    (world.inner.pieceLength call.piece) call.range call.data

def ReadCall.Ok (call : ReadCall) : Prop :=
  ∀ position, call.known position = true -> world.accepted call.piece position = true

def AfterFlush.Ok (piece : Nat) : AfterFlush -> Prop
  | .evict call _ => call.Ok content world
  | .complete => True
  | .fill call => call.Ok world /\ call.piece = piece

def Left (parts : List ByteRange) (piece : Nat) : Nat -> Prop :=
  fun position => Covered parts (world.inner.address piece position)

/-- What a call in progress relies on. -/
def Task.Ok : Task -> Prop
  | .write call _ | .owned call _ => call.Ok content world
  | .flush piece next => next.Ok content world piece
  | .flushing piece parts data _ next =>
    next.Ok content world piece /\
      (∀ position, Covered parts position -> data position = content position) /\
      PieceState.Flushes (contentOf content world.inner piece) (world.piece piece) (Left world parts piece)
  | .through call parts =>
    call.Ok content world /\ PieceState.Passes (world.piece call.piece) /\
      (∀ position, Covered parts position -> world.inner.address call.piece 0 <= position /\
          call.range.Contains (position - world.inner.address call.piece 0)) /\
      ∀ position, call.range.Contains position -> Left world parts call.piece position ∨
          (world.piece call.piece).disk position = contentOf content world.inner call.piece position
  | .filling call len parts data begun =>
    call.Ok world /\ len = world.inner.pieceLength call.piece /\
      (begun = false -> ∀ position < len, Left world parts call.piece position) /\
      (begun = true -> PieceState.Fills (contentOf content world.inner call.piece)
        (world.piece call.piece) (Left world parts call.piece)
        (fun position => data (world.inner.address call.piece position)))
  | .reading call parts data =>
    call.Ok world /\ ∀ position, call.known position = true -> call.range.Contains position ->
      (world.piece call.piece).disk position = contentOf content world.inner call.piece position /\
        (Left world parts call.piece position ∨ data (world.inner.address call.piece position) =
            contentOf content world.inner call.piece position)

/-- A read has returned the content wherever it was accepted before. -/
def Served.Ok (served : Served) : Prop :=
  ∀ position, served.call.range.Contains position -> served.call.known position = true ->
    served.range.Contains position /\
      served.data position = contentOf content world.inner served.call.piece position

end Calls

/-! ## The invariant -/

/-- The pieces are stored, and the calls can rely on them; the call `skip` apart,
which is in a section. -/
structure Kept (content : Nat -> UInt8) (skip : Option Nat) (world : World) : Prop where
  contiguous : Contiguous 0 world.inner.files
  opened : ∀ file ∈ world.inner.files, file.opened = true
  total : totalLength world.inner.files = world.inner.totalLength
  pieces : ∀ piece, PieceState.Stored (contentOf content world.inner piece)
    (world.inner.pieceLength piece) (world.piece piece)
  tasks : ∀ id task, skip ≠ some id -> world.tasks.lookup id = some task -> task.Ok content world
  owners : ∀ i j first second piece, skip ≠ some i -> skip ≠ some j ->
    world.tasks.lookup i = some first -> world.tasks.lookup j = some second ->
    first.Owns piece -> second.Owns piece -> i = j
  served : ∀ served ∈ world.served, served.Ok content world
  failures : world.failures = 0

namespace Kept

variable {content : Nat -> UInt8} {world after : World}

theorem skip (kept : Kept content none world) (id : Nat) : Kept content (some id) world where
  __ := kept
  tasks := fun j task _ => kept.tasks j task (some_ne_none j).symm
  owners := fun i j first second piece _ _ =>
    kept.owners i j first second piece (some_ne_none i).symm (some_ne_none j).symm

/-- A call other than the skipped one. -/
def Other (id : Nat) (world : World) (task : Task) : Prop :=
  Exists fun j => j ≠ id /\ world.tasks.lookup j = some task

/-- What a section may do to a piece: a change that also its owner allows, where
a slot is made anew only if no fill has begun; or a change that the owner makes. -/
def Allowed (content : Nat -> UInt8) (id : Nat) (world after : World) (piece : Nat) : Prop :=
  (Exists fun renewed : Bool =>
    PieceState.Respects (contentOf content world.inner piece) (world.inner.pieceLength piece)
      renewed (world.piece piece) (after.piece piece) /\
    (renewed = true -> ∀ task, Other id world task -> ¬ task.Filling piece)) ∨
  PieceState.Keeps (contentOf content world.inner piece) (world.inner.pieceLength piece) false
      (world.piece piece) (after.piece piece) /\
    ∀ task, Other id world task -> ¬ task.Owns piece

variable {id : Nat} {call : WriteCall} {task : Task} {inner : StorageInner}

theorem Allowed.keeps {piece : Nat} (allowed : Allowed content id world after piece) :
    Exists fun renewed : Bool => PieceState.Keeps (contentOf content world.inner piece)
    (world.inner.pieceLength piece) renewed (world.piece piece) (after.piece piece) /\
    (renewed = true -> ∀ task, Other id world task -> ¬ task.Filling piece) := by
  rcases allowed with ⟨renewed, respects, fresh⟩ | ⟨keeps, _⟩
  · exact ⟨renewed, respects.toKeeps, fresh⟩
  · exact ⟨false, keeps, nofun⟩

theorem ok_write_of_shape (shape : SameShape world.inner after.inner) (ok : call.Ok content world) :
    call.Ok content after := by
  rw [WriteCall.Ok, shape.contentOf, shape.pieceLength]
  exact ok

theorem ok_read_of_accepted {call : ReadCall}
    (accepted : ∀ piece position, world.accepted piece position = true ->
      after.accepted piece position = true) (ok : call.Ok world) : call.Ok after :=
  fun position known => accepted _ _ (ok position known)

theorem ok_next {piece : Nat} {next : AfterFlush} (shape : SameShape world.inner after.inner)
    (accepted : ∀ piece position, world.accepted piece position = true ->
      after.accepted piece position = true)
    (ok : next.Ok content world piece) : next.Ok content after piece := by
  cases next with
  | evict => exact ok_write_of_shape shape ok
  | complete => trivial
  | fill => exact ⟨ok_read_of_accepted accepted ok.1, ok.2⟩

/-- A call that is not in a section still has what it relies on. -/
theorem ok_of_allowed (other : Other id world task) (ok : task.Ok content world)
    (shape : SameShape world.inner after.inner)
    (allowed : ∀ piece, Allowed content id world after piece) : task.Ok content after := by
  have accepted : ∀ piece position, world.accepted piece position = true ->
      after.accepted piece position = true := by
    intro piece position old
    rcases (allowed piece).keeps with ⟨_, keeps, _⟩
    exact keeps.accepted position old
  have left : ∀ parts piece, Left after parts piece = Left world parts piece := by
    intro parts piece
    funext position
    rw [Left, Left, shape.address]
  cases task with
  | write | owned => exact ok_write_of_shape shape ok
  | flush => exact ok_next shape accepted ok
  | flushing piece =>
    rcases ok with ⟨nextOk, good, flushes⟩
    refine ⟨ok_next shape accepted nextOk, good, ?_⟩
    rw [shape.contentOf, left]
    rcases allowed piece with ⟨_, respects, _⟩ | ⟨_, free⟩
    · exact respects.flushes _ flushes
    · exact absurd rfl (free _ other)
  | through call =>
    rcases ok with ⟨callOk, passes, inRange, written⟩
    rw [<- shape.address] at inRange
    refine ⟨ok_write_of_shape shape callOk, ?_, inRange, fun position contains => ?_⟩
    · rcases allowed call.piece with ⟨_, respects, _⟩ | ⟨_, free⟩
      · exact respects.passes passes
      · exact absurd rfl (free _ other)
    · rw [shape.contentOf, left]
      rcases (allowed call.piece).keeps with ⟨_, keeps, _⟩
      exact (written position contains).imp (fun toWrite => toWrite) (keeps.disk position)
  | filling call =>
    rcases ok with ⟨callOk, isLength, all, fills⟩
    refine ⟨ok_read_of_accepted accepted callOk, ?_, ?_, fun isBegun => ?_⟩
    · rw [shape.pieceLength]
      exact isLength
    · rw [left]
      exact all
    · rw [shape.contentOf, shape.address, left]
      rcases (allowed call.piece).keeps with ⟨renewed, keeps, fresh⟩
      have notRenewed : renewed = false := by
        rw [<- Bool.not_eq_true]
        intro isRenewed
        exact fresh isRenewed _ other ⟨rfl, isBegun⟩
      exact keeps.fills notRenewed _ _ (fills isBegun)
  | reading call =>
    rcases ok with ⟨callOk, good⟩
    refine ⟨ok_read_of_accepted accepted callOk, fun position known contains => ?_⟩
    rw [shape.contentOf, shape.address, left]
    rcases (allowed call.piece).keeps with ⟨_, keeps, _⟩
    rcases good position known contains with ⟨there, read⟩
    exact ⟨keeps.disk position there, read⟩

section
variable (kept : Kept content (some id) world)
include kept

theorem change (shape : SameShape world.inner after.inner)
    (tasks : after.tasks = world.tasks) (served : after.served = world.served)
    (failures : after.failures = world.failures)
    (allowed : ∀ piece, Allowed content id world after piece) :
    Kept content (some id) after where
  contiguous := by
    rw [shape.files]
    exact kept.contiguous
  opened := by
    rw [shape.files]
    exact kept.opened
  total := by
    rw [shape.files, shape.totalLength]
    exact kept.total
  pieces := by
    intro piece
    rw [shape.contentOf, shape.pieceLength]
    rcases (allowed piece).keeps with ⟨_, keeps, _⟩
    exact keeps.stored
  tasks := by
    intro j task differs found
    rw [tasks] at found
    have other : Other id world task := ⟨j, fun same => differs (by rw [same]), found⟩
    exact ok_of_allowed other (kept.tasks j task differs found) shape allowed
  owners := by
    rw [tasks]
    exact kept.owners
  served := by
    intro answer there position
    rw [served] at there
    rw [shape.contentOf]
    exact kept.served answer there position
  failures := failures.trans kept.failures

/-- A call begins, or leaves its section with the next thing to do. -/
theorem setTask (ok : task.Ok content world)
    (owner : ∀ piece, task.Owns piece -> ∀ other, Other id world other ->
      ¬ other.Owns piece) : Kept content none (world.setTask id task) where
  __ := kept
  tasks := by
    intro j other _ found
    rw [World.setTask, lookup_insert_eq] at found
    split at found
    · cases found
      exact ok
    · rename_i differs
      exact kept.tasks j other (fun same => differs (Option.some.inj same)) found
  owners := by
    intro i j first second piece _ _ atI atJ firstOwns secondOwns
    rw [World.setTask, lookup_insert_eq] at atI atJ
    split at atI
    · rename_i isI
      split at atJ
      · rename_i isJ
        rw [<- isI, <- isJ]
      · rename_i notJ
        rw [<- Option.some.inj atI] at firstOwns
        exact absurd secondOwns (owner piece firstOwns second ⟨j, Ne.symm notJ, atJ⟩)
    · rename_i notI
      split at atJ
      · rw [<- Option.some.inj atJ] at secondOwns
        exact absurd firstOwns (owner piece secondOwns first ⟨i, Ne.symm notI, atI⟩)
      · rename_i notJ
        exact kept.owners i j first second piece (fun same => notI (Option.some.inj same))
          (fun same => notJ (Option.some.inj same)) atI atJ firstOwns secondOwns

theorem setShared (ok : task.Ok content world)
    (shared : ∀ piece, ¬ task.Owns piece) : Kept content none (world.setTask id task) :=
  kept.setTask ok (fun piece owns => absurd owns (shared piece))

theorem endTask : Kept content none (world.endTask id) where
  __ := kept
  tasks := by
    intro j other _ found
    rw [World.endTask, lookup_erase_eq] at found
    split at found
    · cases found
    rename_i differs
    exact kept.tasks j other (fun same => differs (Option.some.inj same)) found
  owners := by
    intro i j first second piece _ _ atI atJ
    rw [World.endTask, lookup_erase_eq] at atI atJ
    split at atI
    · cases atI
    rename_i notI
    split at atJ
    · cases atJ
    rename_i notJ
    exact kept.owners i j first second piece (fun same => notI (Option.some.inj same))
      (fun same => notJ (Option.some.inj same)) atI atJ

/-- A read returns. -/
theorem serve {answer : Served} (ok : answer.Ok content world) :
    Kept content none { world.endTask id with served := answer :: world.served } where
  __ := kept
  tasks := kept.endTask.tasks
  owners := kept.endTask.owners
  served := by
    intro other there
    rcases List.mem_cons.mp there with rfl | old
    · exact ok
    · exact kept.served other old

end

/-! ## Sections -/

theorem piece_withInner (shape : SameShape world.inner inner) (index : Nat) :
    (world.withInner inner).piece index = { world.piece index with view := inner.view index } := by
  rw [piece, piece, withInner]
  rw [shape.address]

section
variable (kept : Kept content (some id) world)
include kept

/-- Slots that are in the files go. -/
theorem lose (shape : SameShape world.inner inner)
    (lost : ∀ piece, (world.inner.view piece).Lost (inner.view piece)) :
    Kept content (some id) (world.withInner inner) := by
  refine kept.change shape rfl rfl rfl (fun piece => Or.inl ⟨false, ?_, nofun⟩)
  rw [piece_withInner shape]
  exact (kept.pieces piece).lose (lost piece)

/-- Maps that say nothing about stored bytes change. -/
theorem sameViews (shape : SameShape world.inner inner)
    (same : ∀ piece, inner.view piece = world.inner.view piece) :
    Kept content (some id) (world.withInner inner) :=
  kept.lose shape (fun piece => Or.inl (same piece))

theorem notOwned {piece : Nat}
    (free : piece ∉ world.inner.flushing) (other : Other id world task) : ¬ task.Owns piece := by
  rcases other with ⟨j, differs, found⟩
  have ok := kept.tasks j task (fun same => differs (Option.some.inj same).symm) found
  intro owns
  have busy : (world.inner.view piece).flushing = true := by
    cases task with
    | flushing =>
      cases owns
      exact ok.2.2.flushing
    | through =>
      cases owns
      exact ok.2.1.flushing
    | write | owned | flush | filling | reading => cases owns
  exact free (of_decide_eq_true busy)

end

theorem ok_withInner_write (shape : SameShape world.inner inner) (ok : call.Ok content world) :
    call.Ok content (world.withInner inner) :=
  ok_write_of_shape shape ok

theorem address_eq (inner : StorageInner) (piece position : Nat) :
    inner.address piece position = inner.address piece 0 + position := by
  rw [address, address, Nat.add_zero]

theorem left_planFileReads
    {skip : Option Nat} (kept : Kept content skip world) {piece start count : Nat} {parts : List ByteRange}
    (planned : planFileReads world.inner.files (world.inner.address piece start) count = .ok parts)
    (position : Nat) : (Left world parts piece position <-> start <= position /\ position < start + count)
    /\ ∀ absolute, Covered parts absolute -> world.inner.address piece 0 <= absolute /\ start <=
    absolute - world.inner.address piece 0 /\ absolute - world.inner.address piece 0 < start + count := by
  have covered := covered_planFileReads kept.contiguous planned
  rw [address_eq] at covered
  constructor
  · rw [Left, covered, address_eq world.inner piece position]
    omega
  · intro absolute isCovered
    have bounds := (covered absolute).mp isCovered
    omega

theorem plan_ne_error {skip : Option Nat} (kept : Kept content skip world) {piece start count : Nat}
    (inside : start + count <= max start (world.inner.pieceLength piece)) {failure : StorageError} :
    planFileReads world.inner.files (world.inner.address piece start) count ≠ .error failure := by
  intro failed
  have fits : count = 0 \/ world.inner.address piece start + count <= totalLength world.inner.files := by
    rw [kept.total, address]
    rw [pieceLength] at inside
    omega
  rcases planFileReads_ok kept.contiguous (fun file within _ => kept.opened file within) fits with
    ⟨parts, planned⟩
  rw [planned] at failed
  cases failed

/-- A write goes to the files directly, or tries once more. -/
theorem writeThrough (kept : Kept content (some id) world) (ok : call.Ok content world)
    (attempts : Nat) : Kept content none (world.writeThrough id call attempts) := by
  unfold World.writeThrough
  split
  · exact kept.setShared ok fun _ owns => owns
  rename_i idle
  rw [Bool.or_eq_true, not_or, decide_eq_true_eq, isSome_iff_exists, not_exists] at idle
  have missing : (world.inner.view call.piece).slot = none := by
    cases found : world.inner.cache.lookup call.piece with
    | none => exact found
    | some slot => exact absurd found (idle.1 slot)
  split
  · rename_i failure failed
    refine absurd failed (kept.plan_ne_error ?_)
    by_cases some_ : call.range.start < call.range.stop
    · have last := ok.inside (call.range.stop - 1) ⟨by omega, by omega⟩
      omega
    · omega
  · rename_i parts planned
    have plan := fun position => left_planFileReads kept planned position
    have shape : SameShape world.inner { world.inner with
        flushing := insert call.piece world.inner.flushing } := ⟨rfl, rfl, rfl⟩
    have view : ∀ piece, ({ world.inner with
          flushing := insert call.piece world.inner.flushing } : StorageInner).view piece =
          if call.piece = piece then { world.inner.view piece with flushing := true }
          else world.inner.view piece := by
      intro piece
      split
      next same =>
        subst same
        simp [view]
      next differs => simp [view, Ne.symm differs]
    have begun : Kept content (some id) (world.withInner { world.inner with
        flushing := insert call.piece world.inner.flushing }) := by
      refine kept.change shape rfl rfl rfl fun piece => ?_
      rw [Allowed, piece_withInner shape, view]
      split
      next same =>
        subst same
        exact .inr ⟨(kept.pieces _).beginThrough, fun task other => kept.notOwned idle.2 other⟩
      · exact .inl ⟨false, .refl (kept.pieces piece), nofun⟩
    refine begun.setTask ?_ ?_
    · refine ⟨ok_withInner_write shape ok, ?_, fun position covered => ?_, fun position contains => Or.inl ?_⟩
      · rw [piece_withInner shape, view, if_pos rfl]
        exact ⟨missing, rfl⟩
      · have bounds := (plan position).2 position covered
        have below : position - world.inner.address call.piece 0 < call.range.stop := by omega
        exact ⟨bounds.1, bounds.2.1, below⟩
      · refine ((plan position).1).mpr ⟨contains.1, ?_⟩
        have most := contains.2
        omega
    · intro piece owns other isOther
      cases owns
      exact kept.notOwned idle.2 isOther

theorem piece_accept (shape : SameShape world.inner inner) (call : WriteCall) (index : Nat) :
    ((world.withInner inner).accept call).piece index = if call.piece = index then
        { world.piece index with
          view := inner.view index
          accepted := fun position =>
            (world.piece index).accepted position || decide (call.range.Contains position) }
      else { world.piece index with view := inner.view index } := by
  have whole : ((world.withInner inner).accept call).piece index =
      { world.piece index with
        view := inner.view index
        accepted := fun position => world.accepted index position ||
          decide (index = call.piece /\ call.range.Contains position) } := by
    rw [piece, piece, accept, withInner]
    rw [shape.address]
  rw [whole]
  split
  next same =>
    subst same
    simp [piece]
  next differs =>
    have other : index ≠ call.piece := Ne.symm differs
    simp [piece, other]

theorem finishWrite (kept : Kept content (some id) world) (ok : call.Ok content world)
    {created : Bool} (idle : (world.inner.view call.piece).slot = none ->
      (world.inner.view call.piece).flushing = false) (shape : SameShape world.inner inner)
    (others : ∀ piece, piece ≠ call.piece -> (world.inner.view piece).Lost (inner.view piece))
    (own : created = false /\ (world.inner.view call.piece).slot.isSome = true /\
      inner.view call.piece = world.inner.view call.piece \/
      created = true /\ (world.inner.view call.piece).slot = none /\ inner.view call.piece =
        (world.inner.view call.piece).made (world.inner.pieceLength call.piece))
    (fresh : created = true -> ∀ task, Other id world task -> ¬ task.Filling call.piece) :
    Kept content none (((world.withInner (inner.finishWrite created call)).accept call).endTask id) := by
  have finished := shape.trans (inner.sameShape_finishWrite created call)
  have changed : Kept content (some id) ((world.withInner (inner.finishWrite created call)).accept call) := by
    refine kept.change finished rfl rfl rfl fun piece => Or.inl ?_
    rw [piece_accept finished, view_finishWrite, shape.pieceLength]
    by_cases here : call.piece = piece
    · subst here
      rw [if_pos rfl, if_pos rfl]
      have stored := kept.pieces call.piece
      rcases own with ⟨rfl, present, same⟩ | ⟨rfl, missing, made⟩
      · refine ⟨false, ?_, nofun⟩
        rw [same]
        exact stored.receive present ok
      · refine ⟨true, ?_, fresh⟩
        rw [made]
        have renewed := stored.renew missing (idle missing)
        exact renewed.trans (renewed.stored.receive rfl ok)
    · rw [if_neg here, if_neg here]
      exact ⟨false, (kept.pieces piece).lose (others piece (Ne.symm here)), nofun⟩
  exact changed.endTask

/-- The call would make the slot of its piece. -/
def Creates (world : World) (call : WriteCall) : Prop :=
  Exists fun inner =>
    world.inner.ensureCacheSlot call.piece (world.inner.pieceLength call.piece) = some (.ready true, inner)

section
variable (kept : Kept content (some id) world)
include kept

/-- A write gets a slot, looks for one to write to the files, or goes to the
files itself. -/
theorem ensure (ok : call.Ok content world) {attempts : Nat}
    (idle : (world.inner.view call.piece).slot = none -> (world.inner.view call.piece).flushing = false)
    (fresh : Creates world call -> ∀ task, Other id world task -> ¬ task.Filling call.piece)
    (taken : world.ensure id call attempts = some after) : Kept content none after := by
  have length : ∀ slot, (world.inner.view call.piece).slot = some slot ->
      slot.len = world.inner.pieceLength call.piece :=
    (kept.pieces call.piece).length
  unfold World.ensure at taken
  split at taken
  · cases taken
  · rename_i created inner found
    cases taken
    rcases ensureCacheSlot_spec length found with
      ⟨present, outcome, shape, same⟩ | ⟨missing, room⟩
    · cases outcome
      exact kept.finishWrite ok idle shape (fun piece _ => Or.inl (same piece))
        (Or.inl ⟨rfl, present, same _⟩) nofun
    · have isNew : created = true := by
        cases created with
        | false => exact absurd rfl room.made
        | true => rfl
      subst isNew
      exact kept.finishWrite ok idle room.shape room.others
        (Or.inr ⟨rfl, missing, room.own.trans (if_pos rfl)⟩) (fun _ => fresh ⟨inner, found⟩)
  · rename_i victim inner found
    rcases ensureCacheSlot_spec length found with ⟨_, outcome, _⟩ | ⟨_, room⟩
    · cases outcome
    have lost := room.lost StorageInner.CacheSlot.noConfusion
    split at taken
    · cases taken
      have shape : SameShape world.inner
          { inner with evicting := insert victim inner.evicting } :=
        ⟨room.shape.chunkLength, room.shape.totalLength, room.shape.files⟩
      exact (kept.lose shape lost).setShared (ok_withInner_write shape ok) fun _ owns => owns
    · cases taken
      exact (kept.lose room.shape lost).writeThrough (ok_withInner_write room.shape ok) attempts
  · rename_i error inner found
    cases taken
    rcases ensureCacheSlot_spec length found with ⟨_, outcome, _⟩ | ⟨_, room⟩
    · cases outcome
    exact (kept.lose room.shape (room.lost StorageInner.CacheSlot.noConfusion)).writeThrough
      (ok_withInner_write room.shape ok) attempts

theorem evicted (ok : call.Ok content world) (piece : Nat) (flushed : Bool) (attempts : Nat) :
    Kept content none (world.evicted id piece flushed call attempts) := by
  unfold World.evicted
  by_cases clean : (flushed && !world.inner.cacheDirty.get piece &&
      decide (piece ∉ world.inner.flushing)) = true
  · simp only [if_pos clean]
    have shape : SameShape world.inner { world.inner.dropCache piece with
        evicting := (world.inner.dropCache piece).evicting.erase piece } := by
      have dropped := world.inner.sameShape_dropCache piece
      exact ⟨dropped.chunkLength, dropped.totalLength, dropped.files⟩
    rw [Bool.and_eq_true, Bool.and_eq_true, Bool.not_eq_true', decide_eq_true_eq] at clean
    have lost : ∀ other, (world.inner.view other).Lost ((world.inner.dropCache piece).view other) := by
      intro other
      rw [view_dropCache]
      split
      next here =>
        rw [<- here.1]
        exact .inr ⟨rfl, clean.1.2, decide_eq_false clean.2⟩
      · exact .inl rfl
    exact (kept.lose shape lost).setShared (ok_withInner_write shape ok) fun _ owns => owns
  · simp only [if_neg clean]
    have shape : SameShape world.inner { world.inner with
        evicting := world.inner.evicting.erase piece } := ⟨rfl, rfl, rfl⟩
    exact (kept.sameViews shape (fun _ => rfl)).writeThrough (ok_withInner_write shape ok) attempts

/-! ### Reads -/

theorem served_of_slot {call : ReadCall} {slot : Slot}
    (ok : call.Ok world) (found : world.inner.cache.lookup call.piece = some slot)
    (loaded : ∀ written, world.inner.partialSlots.lookup call.piece = some written ->
      ∀ position, call.range.Contains position -> written.Covers position) :
    Served.Ok content world {
        call := call
        range := { start := call.range.start
                   stop := min call.range.stop (world.inner.pieceLength call.piece) }
        data := slot.byte } := by
  intro position contains known
  have stored := kept.pieces call.piece
  refine ⟨⟨contains.1, ?_⟩, ?_⟩
  · exact Nat.lt_min.mpr ⟨contains.2, stored.inside position (ok position known)⟩
  · cases isWritten : world.inner.partialSlots.lookup call.piece with
    | none => exact stored.wholeBytes slot position found isWritten (ok position known)
    | some written =>
      exact stored.writtenBytes slot written position found isWritten
        (loaded written isWritten position contains)

end

section
variable (kept : Kept content (some id) world) {call : ReadCall} (ok : call.Ok world)
  (loaded : ∀ written, (world.inner.view call.piece).slot.isSome = true ->
    world.inner.partialSlots.lookup call.piece = some written ->
    ∀ position, call.range.Contains position -> written.Covers position)
include kept ok loaded

/-- A read serves a slot that has what it asks for, or plans to read the files. -/
theorem readNow : Kept content none (world.readNow id call) := by
  unfold World.readNow
  dsimp only
  split
  · rename_i slot found
    apply kept.serve
    exact kept.served_of_slot ok found (fun written isWritten => loaded written
      (by rw [view, found]; rfl) isWritten)
  · rename_i missing
    split
    · rename_i failure failed
      refine absurd failed (kept.plan_ne_error ?_)
      omega
    rename_i parts planned
    refine kept.setShared ⟨ok, fun position known contains => ?_⟩ fun _ owns => owns
    have stored := kept.pieces call.piece
    have accepted := ok position known
    have there : (world.piece call.piece).disk position =
        contentOf content world.inner call.piece position := by
      rcases stored.safe position accepted with there | ⟨_, isSpans, _⟩
      · exact there
      have present := stored.present (by rw [isSpans]; rfl)
      rw [piece, view, missing] at present
      cases present
    refine ⟨there, Or.inl ?_⟩
    have inside := stored.inside position accepted
    refine ((left_planFileReads kept planned position).1).mpr ⟨contains.1, ?_⟩
    have below := contains.2
    omega

theorem readFilled : Kept content none (world.readFilled id call) := by
  have shape : SameShape world.inner (world.inner.touch call.piece) := ⟨rfl, rfl, rfl⟩
  exact (kept.sameViews shape (fun _ => rfl)).readNow ok loaded

end

theorem planFill (kept : Kept content (some id) world) {call : ReadCall} (ok : call.Ok world) :
    Kept content none (world.planFill id call) := by
  unfold World.planFill
  split
  · rename_i slot kept_ found isWritten
    have length := (kept.pieces call.piece).length slot found
    split
    · rename_i failure failed
      refine absurd failed (kept.plan_ne_error ?_)
      omega
    · rename_i parts planned
      refine kept.setShared ⟨ok, length, fun _ position inside => ?_, nofun⟩ fun _ owns => owns
      refine ((left_planFileReads kept planned position).1).mpr ⟨Nat.zero_le _, ?_⟩
      rw [Nat.zero_add]
      exact inside
  · rename_i unneeded
    refine kept.readFilled ok fun written present isWritten => ?_
    cases found : world.inner.cache.lookup call.piece with
    | none =>
      rw [view, found] at present
      cases present
    | some slot => exact absurd isWritten (unneeded slot written found)

theorem flushed (kept : Kept content (some id) world) {piece : Nat} {next : AfterFlush}
    (ok : next.Ok content world piece) (clean : Bool) :
    Kept content none (world.flushed id piece clean next) := by
  cases next with
  | evict call attempts =>
    simp only [World.flushed]
    split
    · exact kept.evicted ok piece true attempts
    · exact kept.setShared ok fun _ owns => owns
  | complete =>
    simp only [World.flushed]
    split
    · have shape : SameShape world.inner { world.inner with
          completed := world.inner.completed.insert piece true
          savedPartial := world.inner.savedPartial.erase piece } := ⟨rfl, rfl, rfl⟩
      exact (kept.sameViews shape (fun _ => rfl)).endTask
    · exact kept.setShared ok fun _ owns => owns
  | fill => exact kept.planFill ok.1

end Kept
end TorrentPlayer.Storage
