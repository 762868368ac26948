import TorrentPlayer.Storage.WriteBackRuns

namespace TorrentPlayer.Storage

open Library StorageInner

/-!
# Runs of a saved download

The sections of the calls one by one, and what holds of every run in which no
slot is made anew while a fill of its piece has read the files.
-/

namespace World

/-- The piece has no slot, and some call writes it to the files. -/
def waits (world : World) (piece : Nat) : Bool :=
  (world.inner.cache.lookup piece).isNone && decide (piece ∈ world.inner.flushing)

def newSlot (world : World) (call : WriteCall) : Option Nat :=
  match world.inner.ensureCacheSlot call.piece (world.inner.pieceLength call.piece) with
  | some (.ready true, _) => some call.piece
  | _ => none

end World

/-- The piece whose slot the next section of a call makes. -/
def Task.makesSlot (world : World) : Task -> Option Nat
  | .write call _ =>
    if call.piece ∈ world.inner.evicting || world.waits call.piece then none
    else world.newSlot call
  | .owned call _ => if world.waits call.piece then none else world.newSlot call
  | .flush _ _ | .flushing _ _ _ _ _ | .through _ _ | .filling _ _ _ _ _ | .reading _ _ _ => none

/-- No slot is made for a piece while a fill of it has read the files. -/
def NoStaleFill (world : World) (label : StoreLabel) : Prop :=
  match label with
  | .run id => ∀ piece, (world.tasks.lookup id).bind (Task.makesSlot world) = some piece ->
      ∀ entry ∈ world.tasks.entries, ¬ entry.2.Filling piece
  | .writeAt _ _ _ | .markComplete _ _ | .readAt _ _ _ => True

variable {files : List FileDescriptor}

namespace Kept

variable {content : Nat -> UInt8} {world after : World} {id : Nat}
variable {piece : Nat} {part : ByteRange} {data : Nat -> UInt8} {call : WriteCall}
  {parts spans : List ByteRange} {skip : Option Nat} {next : AfterFlush}

theorem othersFree (kept : Kept content none world) {task : Task}
    (found : world.tasks.lookup id = some task) (owns : task.Owns piece) :
    ∀ other, Other id world other -> ¬ other.Owns piece := by
  rintro other ⟨j, differs, foundOther⟩ otherOwns
  exact differs (kept.owners j id other task piece (Option.some_ne_none j).symm
    (Option.some_ne_none id).symm foundOther found otherOwns owns)

theorem ok_of_lookup (kept : Kept content none world) {task : Task}
    (found : world.tasks.lookup id = some task) : task.Ok content world :=
  kept.tasks id task (Option.some_ne_none id).symm found

theorem writePart (kept : Kept content (some id) world)
    (good : ∀ position, part.Contains position -> data position = content position) :
    Kept content (some id) (world.writePart part data) := by
  refine kept.change (.refl _) rfl rfl rfl
    (fun piece => Or.inl ⟨false, ?_, fun impossible => by cases impossible⟩)
  refine (kept.pieces piece).writeDisk fun position there => ?_
  show (if part.Contains (world.inner.address piece position) then
    data (world.inner.address piece position) else _) = _
  split
  · rename_i inPart
    exact good _ inPart
  · exact there

/-! ## Writes -/

/-- A write that goes on finds no owner of a piece without a slot. -/
theorem unowned
    (idle : ¬ ((world.inner.cache.lookup piece).isNone && decide (piece ∈ world.inner.flushing)) = true)
    (missing : (world.inner.view piece).slot = none) : (world.inner.view piece).flushing = false := by
  have none_ : world.inner.cache.lookup piece = none := missing
  rw [none_] at idle
  exact decide_eq_false (fun busy => idle (decide_eq_true busy))

theorem newSlot_of_creates (creates : Creates world call) : world.newSlot call = some call.piece := by
  rcases creates with ⟨_, ready⟩
  rw [World.newSlot, ready]

theorem runOwned (kept : Kept content (some id) world) {attempts : Nat} (ok : call.Ok content world)
    (fresh : ∀ piece, (Task.owned call attempts).makesSlot world = some piece ->
      ∀ other, Other id world other -> ¬ other.Filling piece)
    (taken : world.run id (.owned call attempts) = some after) : Kept content none after := by
  rcases Option.ite_none_left_eq_some.mp taken with ⟨idle, taken⟩
  refine kept.ensure ok (unowned idle) (fun creates => fresh call.piece ?_) taken
  exact (if_neg idle).trans (newSlot_of_creates creates)

theorem runWrite (kept : Kept content (some id) world) {attempts : Nat} (ok : call.Ok content world)
    (fresh : ∀ piece, (Task.write call attempts).makesSlot world = some piece ->
      ∀ other, Other id world other -> ¬ other.Filling piece)
    (taken : world.run id (.write call attempts) = some after) : Kept content none after := by
  simp only [World.run] at taken
  split at taken
  · cases taken
  rename_i stays
  split at taken
  · cases taken
    exact kept.setShared ok fun _ owns => owns
  rename_i idle
  refine kept.ensure ok (unowned idle) (fun creates => fresh call.piece ?_) taken
  have goesOn : ¬ (decide (call.piece ∈ world.inner.evicting) || world.waits call.piece) = true := by
    rw [Bool.or_eq_true, decide_eq_true_eq]
    rintro (leaves | waits)
    · exact stays leaves
    · exact idle waits
  exact (if_neg goesOn).trans (newSlot_of_creates creates)

theorem left_or_of_part {P : UInt8 -> Prop} {position : Nat}
    {new old : UInt8} (inPart : part.Contains (world.inner.address piece position) -> P new)
    (before : Left world (part :: parts) piece position \/ P old) : Left world parts piece position \/
    P (if part.Contains (world.inner.address piece position) then new else old) := by
  split
  next inside => exact .inr (inPart inside)
  next outside =>
    exact before.imp (fun left => ((covered_cons part parts _).mp left).resolve_left outside) id

theorem runThroughPart
    (kept : Kept content none world) (found : world.tasks.lookup id = some (.through call (part :: parts)))
    (taken : world.run id (.through call (part :: parts)) = some after) : Kept content none after := by
  rcases kept.ok_of_lookup found with ⟨ok, passes, inRange, written⟩
  cases taken
  have good : ∀ position, part.Contains position ->
      call.data (position - world.inner.address call.piece 0) = content position := by
    intro position contains
    have within := inRange position ((covered_cons part parts position).mpr (Or.inl contains))
    rw [ok.data _ within.2, contentOf, address_eq]
    congr 1
    omega
  refine ((kept.skip id).writePart good).setTask ⟨ok, ⟨passes.missing, passes.flushing⟩, ?_, ?_⟩ ?_
  · intro position covered
    exact inRange position ((covered_cons part parts position).mpr (Or.inr covered))
  · intro position contains
    exact left_or_of_part (P := (· = contentOf content world.inner call.piece position))
      (good _) (written position contains)
  · intro piece owns
    exact kept.othersFree found owns

/-- A direct write is all in the files. -/
theorem runThroughDone (kept : Kept content none world)
    (found : world.tasks.lookup id = some (.through call []))
    (taken : world.run id (.through call []) = some after) : Kept content none after := by
  rcases kept.ok_of_lookup found with ⟨ok, passes, _, written⟩
  cases taken
  have marked := world.inner.markSavedPartial_frame call.piece
  have shape : SameShape world.inner
      { world.inner.markSavedPartial call.piece with
        flushing := (world.inner.markSavedPartial call.piece).flushing.erase call.piece } := by
    rw [marked]
    exact ⟨rfl, rfl, rfl⟩
  have view : ∀ piece, ({ world.inner.markSavedPartial call.piece with
        flushing := (world.inner.markSavedPartial call.piece).flushing.erase call.piece } :
          StorageInner).view piece =
        if call.piece = piece then { world.inner.view piece with flushing := false }
        else world.inner.view piece := by
    intro piece
    rw [marked]
    split
    next same =>
      subst same
      simp [view]
    next differs => simp [view, Ne.symm differs]
  have changed : Kept content (some id) ((world.withInner
      { world.inner.markSavedPartial call.piece with
        flushing := (world.inner.markSavedPartial call.piece).flushing.erase
          call.piece }).accept call) := by
    refine (kept.skip id).change shape rfl rfl rfl fun piece => ?_
    rw [Allowed, piece_accept shape, view]
    by_cases here : call.piece = piece
    · subst here
      rw [if_pos rfl, if_pos rfl]
      refine .inr ⟨(kept.pieces call.piece).endThrough passes.missing ok.inside ?_, kept.othersFree found rfl⟩
      intro position contains
      refine (written position contains).resolve_left ?_
      exact covered_nil _
    · rw [if_neg here, if_neg here]
      exact .inl ⟨false, .refl (kept.pieces piece), fun impossible => by cases impossible⟩
  exact changed.endTask

/-! ## Flushes -/

theorem covered_planSpans (contiguous : Contiguous 0 files) {base : Nat}
    (planned : planSpans files base spans = .ok parts) (position : Nat) :
    Covered parts position <-> base <= position /\ Covered spans (position - base) := by
  induction spans generalizing parts with
  | nil =>
    cases planned
    simp
  | cons span rest ih =>
    rw [planSpans] at planned
    split at planned
    · cases planned
    rename_i first plannedFirst
    split at planned
    · cases planned
    rename_i more plannedMore
    cases planned
    have here : base + span.start <= position /\ position < base + span.start + (span.stop - span.start) <->
          base <= position /\ span.Contains (position - base) := by
      rw [ByteRange.Contains]
      omega
    rw [covered_append, covered_planFileReads contiguous plannedFirst, ih plannedMore,
      covered_cons, here, and_or_left]

theorem lt_of_mem_planSpans {base : Nat} (planned : planSpans files base spans = .ok parts) :
    ∀ part ∈ parts, part.start < part.stop := by
  induction spans generalizing parts with
  | nil =>
    intro part within
    cases planned
    cases within
  | cons span rest ih =>
    rw [planSpans] at planned
    split at planned
    · cases planned
    rename_i first plannedFirst
    split at planned
    · cases planned
    rename_i more plannedMore
    cases planned
    intro part within
    rcases List.mem_append.mp within with here | behind
    · exact lt_of_mem_planFileReads plannedFirst part here
    · exact ih plannedMore part behind

theorem planSpans_ok (contiguous : Contiguous 0 files) {base length : Nat}
    (opened : OpenIn files base (base + length))
    (fits : length = 0 \/ base + length <= totalLength files)
    (inside : ∀ position, Covered spans position -> position < length) :
    Exists fun parts => planSpans files base spans = .ok parts := by
  induction spans with
  | nil => exact ⟨[], rfl⟩
  | cons span rest ih =>
    have last : span.start < span.stop -> span.stop <= length := by
      intro some_
      have contains : span.Contains (span.stop - 1) := ⟨by omega, by omega⟩
      have below := inside _ ((covered_cons span rest _).mpr (Or.inl contains))
      omega
    have openPart : OpenIn files (base + span.start) (base + span.start + (span.stop - span.start)) := by
      intro file within overlaps
      exact opened file within (by omega)
    rcases planFileReads_ok contiguous openPart (by omega) with ⟨_, planned⟩
    rcases ih (fun position covered =>
      inside position ((covered_cons span rest position).mpr (Or.inr covered))) with
      ⟨more, plannedMore⟩
    rw [planSpans, planned, plannedMore]
    exact ⟨_, rfl⟩

theorem planSpans_ne_error (kept : Kept content skip world) (inside : ∀ position, Covered spans position ->
      position < world.inner.pieceLength piece) {failure : StorageError} :
    planSpans world.inner.files (world.inner.address piece 0) spans ≠ .error failure := by
  intro failed
  have fits : world.inner.pieceLength piece = 0 \/
      world.inner.address piece 0 + world.inner.pieceLength piece <= totalLength world.inner.files := by
    rw [kept.total, address, pieceLength]
    omega
  rcases planSpans_ok kept.contiguous (fun file within _ => kept.opened file within) fits inside
    with ⟨parts, planned⟩
  rw [planned] at failed
  cases failed

theorem planPieceFlush_spec (kept : Kept content skip world) (piece : Nat) :
    world.inner.planPieceFlush piece = .ok none \/ Exists fun slot => Exists fun spans => Exists fun parts =>
        (world.inner.view piece).slot = some slot /\ (world.inner.view piece).spans = some spans /\
          planSpans world.inner.files (world.inner.address piece 0) spans.list = .ok parts /\
          world.inner.planPieceFlush piece = .ok (some {
              parts := parts
              data := fun position => slot.byte (position - world.inner.address piece 0) }) := by
  have stored := kept.pieces piece
  cases isSpans : world.inner.dirtySpans.lookup piece with
  | none =>
    left
    have clean : world.inner.cacheDirty.get piece = false := by
      have same : world.inner.cacheDirty.get piece = (world.inner.dirtySpans.lookup piece).isSome :=
        stored.dirty
      rw [same, isSpans]
      rfl
    rw [planPieceFlush, clean]
    rfl
  | some spans =>
    right
    have present : (world.inner.cache.lookup piece).isSome = true :=
      stored.present (by rw [World.piece, view, isSpans]; rfl)
    rcases Option.isSome_iff_exists.mp present with ⟨slot, isSlot⟩
    have dirty : world.inner.cacheDirty.get piece = true := by
      have same : world.inner.cacheDirty.get piece = (world.inner.dirtySpans.lookup piece).isSome :=
        stored.dirty
      rw [same, isSpans]
      rfl
    cases planned : planSpans world.inner.files (world.inner.address piece 0) spans.list with
    | error =>
      exact absurd planned (kept.planSpans_ne_error
        (fun position covered => stored.spanInside spans position isSpans covered))
    | ok parts =>
      refine ⟨slot, spans, parts, isSlot, isSpans, planned, ?_⟩
      rw [planPieceFlush, dirty, isSlot, isSpans]
      simp only [Bool.not_true, Bool.false_eq_true, if_false, planned]
      rfl

theorem runFlush (kept : Kept content (some id) world) (ok : next.Ok content world piece)
    (taken : world.run id (.flush piece next) = some after) : Kept content none after := by
  rcases Option.ite_none_left_eq_some.mp taken with ⟨free, taken⟩
  rcases kept.planPieceFlush_spec piece with
    nothing | ⟨slot, spans, parts, isSlot, isSpans, planned, isPlan⟩
  · rw [nothing] at taken
    cases taken
    exact kept.flushed ok true
  · rw [isPlan] at taken
    cases taken
    have stored := kept.pieces piece
    have covered := fun position => covered_planSpans kept.contiguous planned position
    have shape : SameShape world.inner (world.inner.beginFlush piece) := ⟨rfl, rfl, rfl⟩
    have begun : Kept content (some id) (world.withInner (world.inner.beginFlush piece)) := by
      refine kept.change shape rfl rfl rfl fun other => ?_
      rw [Allowed, piece_withInner shape, view_beginFlush]
      split
      next same =>
        subst same
        exact .inr ⟨stored.beginFlush, fun task => kept.notOwned free⟩
      · exact .inl ⟨false, .refl (kept.pieces other), fun impossible => by cases impossible⟩
    have flushes : PieceState.Flushes (contentOf content world.inner piece)
        { world.piece piece with view := (world.piece piece).view.begun }
        (Left world parts piece) := by
      refine PieceState.flushes_begun ?_ ?_
      · rw [World.piece, isSlot]
        rfl
      · intro others position isOthers covers
        have same : others = spans := Option.some.inj (isOthers.symm.trans isSpans)
        rw [same] at covers
        rw [Left, covered, address_eq world.inner piece position, Nat.add_sub_cancel_left]
        exact ⟨Nat.le_add_right _ _, covers⟩
    refine begun.setTask ⟨?_, ?_, ?_⟩ ?_
    · exact ok_next shape (fun _ _ old => old) ok
    · intro position isCovered
      rcases (covered position).mp isCovered with ⟨_, inSpans⟩
      show slot.byte (position - world.inner.address piece 0) = content position
      rw [stored.spanBytes slot spans _ isSlot isSpans inSpans, contentOf, address_eq]
      congr 1
      omega
    · rw [piece_withInner shape, view_beginFlush, if_pos rfl]
      exact flushes
    · intro other owns task isOther
      cases owns
      exact kept.notOwned free isOther

theorem runFlushingPart (kept : Kept content none world) {wrote : Bool}
    (found : world.tasks.lookup id = some (.flushing piece (part :: parts) data wrote next))
    (taken : world.run id (.flushing piece (part :: parts) data wrote next) = some after) :
    Kept content none after := by
  rcases kept.ok_of_lookup found with ⟨ok, good, flushes⟩
  cases taken
  have goodPart : ∀ position, part.Contains position -> data position = content position :=
    fun position contains => good position ((covered_cons part parts position).mpr (Or.inl contains))
  refine ((kept.skip id).writePart goodPart).setTask ⟨?_, ?_, ?_⟩ ?_
  · exact ok_next (.refl _) (fun _ _ old => old) ok
  · intro position covered
    exact good position ((covered_cons part parts position).mpr (Or.inr covered))
  · refine ⟨flushes.present, flushes.flushing, fun spans position isSpans covers => ?_⟩
    exact left_or_of_part (P := (· = contentOf content world.inner piece position \/ _))
      (fun inPart => Or.inl (goodPart _ inPart)) (flushes.spans spans position isSpans covers)
  · intro other owns
    exact kept.othersFree found owns

theorem runFlushingDone (kept : Kept content none world)
    {wrote : Bool} (found : world.tasks.lookup id = some (.flushing piece [] data wrote next))
    (taken : world.run id (.flushing piece [] data wrote next) = some after) : Kept content none after := by
  rcases kept.ok_of_lookup found with ⟨ok, _, flushes⟩
  cases taken
  have shape := world.inner.sameShape_publishFlush piece wrote
  have written : PieceState.Flushes (contentOf content world.inner piece) (world.piece piece)
      (fun _ => False) := by
    refine ⟨flushes.present, flushes.flushing, fun spans position isSpans covers => ?_⟩
    exact (flushes.spans spans position isSpans covers).imp (covered_nil _) fun rest => rest
  have published : Kept content (some id) (world.withInner (world.inner.publishFlush piece wrote).2) := by
    refine (kept.skip id).change shape rfl rfl rfl fun other => ?_
    rw [Allowed, piece_withInner shape, view_publishFlush]
    split
    next same =>
      subst same
      exact .inr ⟨(kept.pieces piece).publishFlush written, kept.othersFree found rfl⟩
    · exact .inl ⟨false, .refl (kept.pieces other), fun impossible => by cases impossible⟩
  exact published.flushed (ok_next shape (fun _ _ old => old) ok) _

/-- What is in the files, or in the slot as it was received. -/
theorem disk_or_written (kept : Kept content skip world) {position : Nat}
    (accepted : world.accepted piece position = true) {written : Ranges}
    (isWritten : (world.inner.view piece).written = some written) :
    world.disk (world.inner.address piece position) =
      contentOf content world.inner piece position \/ written.Covers position := by
  have stored := kept.pieces piece
  rcases stored.safe position accepted with there | ⟨spans, isSpans, covers⟩
  · exact .inl there
  · exact .inr (stored.spanWritten written spans position isWritten isSpans covers)

section
variable (kept : Kept content none world) {call : ReadCall}
include kept

theorem runFillingPart {len : Nat} {begun : Bool}
    (found : world.tasks.lookup id = some (.filling call len (part :: parts) data begun))
    (taken : world.run id (.filling call len (part :: parts) data begun) = some after) :
    Kept content none after := by
  rcases kept.ok_of_lookup found with ⟨ok, isLength, all, fills⟩
  cases taken
  refine (kept.skip id).setShared ⟨ok, isLength, (fun impossible => by cases impossible), ?_⟩
    (fun _ owns => owns)
  intro _ written present isWritten position accepted
  refine left_or_of_part
    (P := (· = contentOf content world.inner call.piece position \/ written.Covers position))
    (fun _ => kept.disk_or_written accepted isWritten) ?_
  cases begun with
  | false =>
    have inside := (kept.pieces call.piece).inside position accepted
    rw [<- isLength] at inside
    exact .inl (all rfl position inside)
  | true => exact fills rfl written present isWritten position accepted

theorem runFillingDone
    {len : Nat} {begun : Bool} (found : world.tasks.lookup id = some (.filling call len [] data begun))
    (taken : world.run id (.filling call len [] data begun) = some after) : Kept content none after := by
  rcases kept.ok_of_lookup found with ⟨ok, isLength, all, fills⟩
  cases taken
  have stored := kept.pieces call.piece
  let disk := fun position => data (world.inner.address call.piece position)
  have read : PieceState.Fills (contentOf content world.inner call.piece) (world.piece call.piece)
      (fun _ => False) disk := by
    intro written present isWritten position accepted
    cases begun with
    | false =>
      have inside := stored.inside position accepted
      rw [<- isLength] at inside
      exact absurd (all rfl position inside) (covered_nil _)
    | true =>
      exact (fills rfl written present isWritten position accepted).imp (covered_nil _) (fun rest => rest)
  have shape := world.inner.sameShape_publishFill call.piece len disk
  have view := fun other => world.inner.view_publishFill call.piece other len disk
  have filled : Kept content (some id) (world.withInner (world.inner.publishFill call.piece len disk)) := by
    refine (kept.skip id).change shape rfl rfl rfl
      (fun other => Or.inl ⟨false, ?_, fun impossible => by cases impossible⟩)
    rw [piece_withInner shape, view]
    split
    next same =>
      subst same
      rw [isLength]
      exact stored.publishFill read
    · exact .refl (kept.pieces other)
  refine filled.readFilled ok fun written present isWritten => ?_
  -- A slot that the fill has reached is whole.
  have own := (view call.piece).trans (if_pos rfl)
  rcases Option.isSome_iff_exists.mp present with ⟨_, isSlot⟩
  have whole : (world.inner.publishFill call.piece len disk).partialSlots.lookup call.piece = none := by
    have slotAfter := (congrArg PieceView.slot own).symm.trans isSlot
    have written_ := congrArg PieceView.written own
    rw [isLength] at slotAfter written_
    rw [isLength]
    exact written_.trans (stored.filled_written _ slotAfter)
  exact absurd (whole.symm.trans isWritten) (Option.some_ne_none written).symm

theorem runReadingPart (found : world.tasks.lookup id = some (.reading call (part :: parts) data))
    (taken : world.run id (.reading call (part :: parts) data) = some after) : Kept content none after := by
  rcases kept.ok_of_lookup found with ⟨ok, good⟩
  cases taken
  refine (kept.skip id).setShared ⟨ok, fun position known contains => ?_⟩ fun _ owns => owns
  rcases good position known contains with ⟨there, read⟩
  refine ⟨there, ?_⟩
  exact left_or_of_part (P := (· = contentOf content world.inner call.piece position))
    (fun _ => there) read

theorem runReadingDone (found : world.tasks.lookup id = some (.reading call [] data))
    (taken : world.run id (.reading call [] data) = some after) : Kept content none after := by
  rcases kept.ok_of_lookup found with ⟨ok, good⟩
  cases taken
  refine (kept.skip id).serve (fun position contains known => ⟨⟨contains.1, ?_⟩, ?_⟩)
  · have inside := (kept.pieces call.piece).inside position (ok position known)
    exact Nat.lt_min.mpr ⟨contains.2, inside⟩
  · exact (good position known contains).2.resolve_left (covered_nil _)

/-! ## Runs -/

/-- A call takes its next section. -/
theorem run {task : Task} (found : world.tasks.lookup id = some task)
    (fresh : ∀ piece, task.makesSlot world = some piece ->
      ∀ other, Other id world other -> ¬ other.Filling piece)
    (taken : world.run id task = some after) : Kept content none after := by
  have ok := kept.ok_of_lookup found
  cases task with
  | write => exact (kept.skip id).runWrite ok fresh taken
  | owned => exact (kept.skip id).runOwned ok fresh taken
  | flush => exact (kept.skip id).runFlush ok taken
  | flushing piece parts =>
    cases parts with
    | nil => exact kept.runFlushingDone found taken
    | cons => exact kept.runFlushingPart found taken
  | through call parts =>
    cases parts with
    | nil => exact kept.runThroughDone found taken
    | cons => exact kept.runThroughPart found taken
  | filling call len parts =>
    cases parts with
    | nil => exact kept.runFillingDone found taken
    | cons => exact kept.runFillingPart found taken
  | reading call parts =>
    cases parts with
    | nil => exact kept.runReadingDone found taken
    | cons => exact kept.runReadingPart found taken

end

theorem step {label : StoreLabel} (kept : Kept content none world) (noStale : NoStaleFill world label)
    (taken : World.step content world label = some after) : Kept content none after := by
  cases label with
  | writeAt id =>
    rcases Option.ite_none_right_eq_some.mp taken with ⟨inside, taken⟩
    rw [Bool.and_eq_true, Bool.and_eq_true, decide_eq_true_eq, decide_eq_true_eq] at inside
    cases taken
    refine (kept.skip id).setShared ⟨?_, fun _ _ => rfl⟩ fun _ owns => owns
    intro position contains
    exact Nat.lt_of_lt_of_le contains.2 inside.2
  | markComplete id =>
    rcases Option.ite_none_right_eq_some.mp taken with ⟨_, ⟨⟩⟩
    exact (kept.skip id).setShared trivial fun _ owns => owns
  | readAt id piece range =>
    simp only [World.step] at taken
    split at taken
    · have ok : ReadCall.Ok world
          { piece := piece, range := range, known := world.accepted piece } :=
        fun _ known => known
      split at taken
      · rename_i missing
        cases taken
        refine (kept.skip id).readNow ok fun written present => ?_
        rw [view, Option.isNone_iff_eq_none.mp missing] at present
        cases present
      · split at taken
        · cases taken
          exact (kept.skip id).setShared ⟨ok, rfl⟩ fun _ owns => owns
        rename_i unneeded
        cases taken
        refine (kept.skip id).readFilled ok fun written _ isWritten position contains => ?_
        -- The slot has received all that the read asks for.
        have isWritten' : world.inner.partialSlots.lookup piece = some written := isWritten
        rw [needsFill, isWritten', Bool.not_eq_true', Bool.not_eq_false] at unneeded
        exact covered_of_rangesCover unneeded contains.1 contains.2
    · cases taken
  | run =>
    simp only [World.step] at taken
    split at taken
    · cases taken
    rename_i task found
    refine kept.run found (fun piece makes other isOther => ?_) taken
    rcases isOther with ⟨j, _, foundOther⟩
    refine noStale piece ?_ ⟨j, other⟩ ((FiniteMap.mem_entries_iff _ _ _).mpr foundOther)
    rw [found]
    exact makes

end Kept

theorem contiguous_opened {offset : Nat} (contiguous : Contiguous offset files) :
    Contiguous offset (files.map (fun file => { file with opened := true })) := by
  induction files generalizing offset with
  | nil => trivial
  | cons file rest ih => exact ⟨contiguous.1, ih contiguous.2⟩

theorem totalLength_descriptors (offset : Nat) (files : List (Nat × String)) :
    totalLength ((descriptors offset files).map (fun file => { file with opened := true })) =
      (files.map Prod.fst).sum := by
  rw [totalLength, List.map_map]
  induction files generalizing offset with
  | nil => rfl
  | cons file rest ih =>
    rw [descriptors, List.map_cons, List.sum_cons, ih]
    rfl

theorem PieceState.stored_empty {content : Nat -> UInt8} {len : Nat} {state : PieceState}
    (noSlot : state.view.slot = none) (clean : state.view.dirty = false)
    (noSpans : state.view.spans = none) (noneArrived : state.view.arrived = none)
    (nothing : ∀ position, state.accepted position = false) : Stored content len state := by
  refine ⟨?_, ?_, ?_, ?_, ?_, ?_, ?_, ?_, ?_, ?_, ?_⟩
  · intro slot found
    rw [noSlot] at found
    cases found
  · rw [clean, noSpans]
    rfl
  · intro found
    rw [noSpans] at found
    cases found
  · intro slot spans position found
    rw [noSlot] at found
    cases found
  · intro written spans position _ found
    rw [noSpans] at found
    cases found
  · intro slot written position found
    rw [noSlot] at found
    cases found
  · intro slot position found
    rw [noSlot] at found
    cases found
  · intro position accepted
    rw [nothing] at accepted
    cases accepted
  · intro arrived position found
    rw [noneArrived] at found
    cases found
  · intro position accepted
    rw [nothing] at accepted
    cases accepted
  · intro spans position found
    rw [noSpans] at found
    cases found

theorem kept_attached (content : Nat -> UInt8) {world : World}
    (initial : (World.machine content).init world) : Kept content none world := by
  rcases initial with ⟨_, files, _, _, _, rfl⟩
  refine ⟨contiguous_opened (contiguous_descriptors 0 files), ?_, totalLength_descriptors 0 files,
    ?_, ?_, ?_, ?_, rfl⟩
  · intro file member
    rcases List.mem_map.mp member with ⟨_, _, rfl⟩
    rfl
  · intro piece
    exact PieceState.stored_empty rfl rfl rfl rfl fun _ => rfl
  · nofun
  · nofun
  · nofun

/-- In every run in which no slot is made while a fill of its piece has read the
files: an accepted byte is in the files, or in a slot under a dirty span; every
read has returned the accepted value of each accepted byte that it covers; and no
call has returned an error. -/
theorem accepted_bytes_kept {content : Nat -> UInt8} {labels : List StoreLabel} {world : World}
    (run : (World.machine content).RunsTo NoStaleFill labels world) :
    (forall piece position, world.accepted piece position = true ->
      world.disk (world.inner.address piece position) = content (world.inner.address piece position) ∨
        Exists fun slot => Exists fun spans => world.inner.cache.lookup piece = some slot ∧
          world.inner.cacheDirty.get piece = true ∧
          world.inner.dirtySpans.lookup piece = some spans ∧ spans.Covers position ∧
          slot.byte position = content (world.inner.address piece position)) ∧
      (forall served, served ∈ world.served -> forall position,
        served.call.range.Contains position -> served.call.known position = true ->
          served.range.Contains position ∧
            served.data position = content (world.inner.address served.call.piece position)) ∧
      world.failures = 0 := by
  have kept : Kept content none world :=
    run.stateInvariant (fun _ initial => kept_attached content initial)
      (fun _ _ _ kept noStale taken => kept.step noStale taken)
  refine ⟨?_, kept.served, kept.failures⟩
  intro piece position accepted
  have stored := kept.pieces piece
  refine (stored.safe position accepted).imp (fun there => there) ?_
  rintro ⟨spans, isSpans, covers⟩
  have some_ : (world.inner.view piece).spans.isSome = true := by
    rw [show (world.inner.view piece).spans = some spans from isSpans]
    rfl
  rcases Option.isSome_iff_exists.mp (stored.present some_) with ⟨slot, isSlot⟩
  exact ⟨slot, spans, isSlot, stored.dirty.trans some_, isSpans, covers,
    stored.spanBytes slot spans position isSlot isSpans covers⟩

instance (task : Task) (piece : Nat) : Decidable (task.Filling piece) :=
  match task with
  | .filling call _ _ _ begun => inferInstanceAs (Decidable (call.piece = piece /\ begun = true))
  | .write _ _ | .owned _ _ | .flush _ _ | .flushing _ _ _ _ _ | .through _ _ | .reading _ _ _ =>
    isFalse (fun impossible => impossible)

instance (world : World) (label : StoreLabel) : Decidable (NoStaleFill world label) :=
  match label with
  | .run id =>
    match made : (world.tasks.lookup id).bind (Task.makesSlot world) with
    | none => isTrue (fun _ impossible => by rw [made] at impossible; cases impossible)
    | some piece =>
      decidable_of_iff (∀ entry ∈ world.tasks.entries, ¬ entry.2.Filling piece) ⟨fun none_ other same => by
          rw [made] at same
          cases same
          exact none_, fun noStale => noStale piece made⟩
  | .writeAt _ _ _ | .markComplete _ _ | .readAt _ _ _ => isTrue trivial

namespace World

/-- Three pieces of 256 MiB in one file that is still all zeros.  Memory has room
for two of them. -/
def threePieces : World :=
  attached (2 ^ 28) [(3 * 2 ^ 28, "film")] 0 ∅ (fun _ => 0)

theorem threePieces_init : (machine (fun _ => 7)).init threePieces :=
  ⟨_, _, _, _, _, rfl⟩

/-- Byte 0 is written, and a read of byte 2 has the slot filled: it writes the
slot to the file and reads the file. -/
def writeThenFill : List StoreLabel :=
  [.writeAt 1 0 ⟨0, 1⟩, .run 1, .readAt 2 0 ⟨0, 3⟩, .run 2, .run 2, .run 2, .run 2]

/-- The read returns. -/
theorem accepted_bytes_kept_writeThenFill :
    let reached := ((machine (fun _ => 7)).exec threePieces (writeThenFill ++ [.run 2])).getD threePieces
    reached.served.length = 1 ∧ reached.accepted 0 0 = true ∧
      (forall piece position, reached.accepted piece position = true ->
        reached.disk (reached.inner.address piece position) = 7 ∨
          Exists fun slot => Exists fun spans => reached.inner.cache.lookup piece = some slot ∧
            reached.inner.cacheDirty.get piece = true ∧
            reached.inner.dirtySpans.lookup piece = some spans ∧ spans.Covers position ∧
            slot.byte position = 7) ∧
      (forall served, served ∈ reached.served -> forall position,
        served.call.range.Contains position -> served.call.known position = true ->
          served.range.Contains position ∧ served.data position = 7) ∧
      reached.failures = 0 := by
  have run : (machine (fun _ => 7)).RunsTo NoStaleFill (writeThenFill ++ [.run 2])
      (((machine (fun _ => 7)).exec threePieces (writeThenFill ++ [.run 2])).getD threePieces) :=
    .of_exec threePieces_init (by decide +kernel) rfl
  exact ⟨by decide +kernel, by decide +kernel, accepted_bytes_kept run⟩

/-- Byte 4 arrives while the fill has read the file.  Two more pieces push the
slot out, and byte 8 makes it anew. -/
def slotMadeAnew : List StoreLabel :=
  [.writeAt 3 0 ⟨4, 5⟩, .run 3, .writeAt 4 1 ⟨0, 1⟩, .run 4,
    .writeAt 5 2 ⟨0, 1⟩, .run 5, .run 5, .run 5, .run 5, .run 5,
    .writeAt 6 0 ⟨8, 9⟩, .run 6, .run 6, .run 6, .run 6, .run 6]

/-- The fill puts what it read before into the new slot.  Byte 4 was accepted and
is in the file, and a read of it returns a zero. -/
theorem stale_byte_served :
    let labels := writeThenFill ++ slotMadeAnew ++ [.run 2, .readAt 7 0 ⟨4, 5⟩]
    let reached := ((machine (fun _ => 7)).exec threePieces labels).getD threePieces
    (machine (fun _ => 7)).RunsTo Machine.always labels reached ∧
      Exists fun served => served ∈ reached.served ∧ served.call.range.Contains 4 ∧
        served.call.known 4 = true ∧ served.data 4 = 0 := by
  refine ⟨.of_exec threePieces_init (Machine.permits_always _ _ _) rfl, ?_⟩
  have found : ((((machine (fun _ => 7)).exec threePieces
      (writeThenFill ++ slotMadeAnew ++ [.run 2, .readAt 7 0 ⟨4, 5⟩])).getD
        threePieces).served.any (fun served => decide (served.call.range.Contains 4 /\
          served.call.known 4 = true /\ served.data 4 = 0))) = true := by
    decide +kernel
  rcases List.any_eq_true.mp found with ⟨served, member, stale⟩
  exact ⟨served, member, of_decide_eq_true stale⟩

end World
end TorrentPlayer.Storage
