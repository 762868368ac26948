import TorrentPlayer.Storage.WriteBack

namespace TorrentPlayer.Storage

open Library FiniteMap Flags Option

/-!
# One piece at a time

What the maps of the store say about one piece.  Each section changes the view of
its own piece in one way and leaves the other pieces alone; making room drops
slots whose bytes are in the files.
-/

structure PieceView where
  slot : Option Slot
  dirty : Bool
  spans : Option Ranges
  /-- What the slot received, if it was not loaded from the files. -/
  written : Option Ranges
  flushing : Bool
  raced : Bool
  arrived : Option Ranges

namespace StorageInner

def view (inner : StorageInner) (index : Nat) : PieceView where
  slot := inner.cache.lookup index
  dirty := inner.cacheDirty.get index
  spans := inner.dirtySpans.lookup index
  written := inner.partialSlots.lookup index
  flushing := decide (index ∈ inner.flushing)
  raced := decide (index ∈ inner.flushRaced)
  arrived := inner.flushNew.lookup index

end StorageInner

theorem Flags.get_insert (flags : Flags) (index other : Nat) (value : Bool) :
    get (flags.insert index value) other = if index = other then value else flags.get other := by
  rw [get, lookup_insert_eq]
  split <;> rfl

theorem Flags.get_erase (flags : Flags) (index other : Nat) :
    get (flags.erase index) other = if index = other then false else flags.get other := by
  rw [get, lookup_erase_eq]
  split <;> rfl

namespace PieceView

def dropped (view : PieceView) : PieceView :=
  { view with slot := none, dirty := false, spans := none, arrived := none }

def made (view : PieceView) (expected : Nat) : PieceView :=
  { view with slot := some (Slot.zeros expected) }

/-- With a slot that has received nothing yet. -/
def fresh (view : PieceView) : PieceView :=
  { view with written := some Ranges.empty }

def received (view : PieceView) (range : ByteRange) (data : Nat -> UInt8) (expected : Nat) : PieceView where
  slot := view.slot.map (fun slot => slot.write range data)
  dirty := true
  spans := some ((view.spans.getD Ranges.empty).insert range)
  written := (view.written.map (fun written => written.insert range)).filter
    (fun written => decide (¬ written.IsWhole expected))
  flushing := view.flushing
  raced := view.raced || view.flushing
  arrived :=
    if view.flushing then some ((view.arrived.getD Ranges.empty).insert range) else view.arrived

/-- With a flush that has just been planned. -/
def begun (view : PieceView) : PieceView :=
  { view with flushing := true, raced := false, arrived := none }

/-- With nothing in progress. -/
def released (view : PieceView) : PieceView :=
  { view with flushing := false, raced := false, arrived := none }

/-- What a flush leaves to write. -/
def arrivedMeanwhile (view : PieceView) : Option Ranges :=
  if view.raced then
    view.arrived.filter (fun arrived => !arrived.list.isEmpty && view.slot.isSome)
  else none

/-- With a flush that has ended. -/
def published (view : PieceView) : PieceView :=
  { view.released with
    spans := view.arrivedMeanwhile
    dirty := view.arrivedMeanwhile.isSome }

/-- With the bytes of the files, where the slot has received nothing. -/
def filled (view : PieceView) (len : Nat) (data : Nat -> UInt8) : PieceView :=
  match view.written, view.slot with
  | some kept, some slot =>
    if slot.len = len then { view with slot := some (slot.fill kept data), written := none }
    else view
  | _, _ => view

end PieceView

namespace StorageInner

variable (inner : StorageInner) (index other : Nat)

@[simp] theorem view_touch : (inner.touch index).view other = inner.view other :=
  rfl

theorem view_dropCache : (inner.dropCache index).view other = if index = other /\
    (inner.view index).slot.isSome = true then (inner.view other).dropped else inner.view other := by
  rw [dropCache]
  split
  next missing =>
    rw [if_neg]
    rintro ⟨_, present⟩
    rw [view, missing] at present
    cases present
  next data found =>
    by_cases same : index = other
    · subst same
      have present : (inner.view index).slot.isSome = true := by
        rw [view, found]
        rfl
      rw [if_pos ⟨rfl, present⟩]
      simp [view, PieceView.dropped, get_erase]
    · rw [if_neg (fun both => same both.1)]
      simp [view, lookup_erase_eq, get_erase, same]

variable (created : Bool) (range : ByteRange) (expected : Nat)

theorem view_makeSlot : (inner.makeSlot index expected).view other =
    if index = other then (inner.view other).made expected else inner.view other := by
  rw [makeSlot, view_touch]
  split
  next same =>
    subst same
    simp [view, PieceView.made]
  next differs => simp [view, lookup_insert_eq, differs]

theorem view_noteCreated : (inner.noteCreated created index).view other =
    if index = other /\ created = true then (inner.view other).fresh else inner.view other := by
  unfold noteCreated
  cases created with
  | false => simp
  | true =>
    by_cases same : index = other
    · subst same
      simp [view, PieceView.fresh]
    · simp [view, lookup_insert_eq, same]

theorem view_noteRace : (inner.noteRace index range).view other =
      if index = other /\ index ∈ inner.flushing then
        { inner.view other with
          raced := true
          arrived := some (((inner.view other).arrived.getD Ranges.empty).insert range) }
      else inner.view other := by
  unfold noteRace
  by_cases busy : index ∈ inner.flushing
  · by_cases same : index = other
    · subst same
      simp [view, busy]
    · simp [view, busy, same, Ne.symm same]
  · simp [busy]

theorem view_copyIn (data : Nat -> UInt8) : (inner.copyIn index range data).view other =
      if index = other then
        { inner.view other with
          slot := (inner.view other).slot.map (fun slot => slot.write range data) }
      else inner.view other := by
  unfold copyIn
  split
  next missing =>
    split
    next same =>
      subst same
      simp [view, missing]
    · rfl
  next slot found =>
    by_cases same : index = other
    · subst same
      simp [view, found]
    · simp [view, lookup_insert_eq, same]

theorem view_notePartial : (inner.notePartial index range expected).view other =
      if index = other then
        { inner.view other with
          written := ((inner.view other).written.map (fun written => written.insert range)).filter
            (fun written => decide (¬ written.IsWhole expected)) }
      else inner.view other := by
  unfold notePartial
  split
  next missing =>
    split
    next same =>
      subst same
      simp [view, missing]
    · rfl
  next written found =>
    by_cases same : index = other
    · subst same
      split
      next whole => simp [view, found, filter_some, whole]
      next short => simp [view, found, filter_some, short]
    · split <;> simp [view, lookup_insert_eq, lookup_erase_eq, same]

theorem view_noteDirty : (inner.noteDirty index range).view other = if index = other then
        { inner.view other with
          dirty := true
          spans := some (((inner.view other).spans.getD Ranges.empty).insert range) }
      else inner.view other := by
  unfold noteDirty
  by_cases same : index = other
  · subst same
    simp [view, get_insert]
  · simp [view, lookup_insert_eq, get_insert, same]

theorem view_finishWrite (call : WriteCall) : (inner.finishWrite created call).view other =
    if call.piece = other then
      (if created then (inner.view other).fresh else inner.view other).received call.range
        call.data (inner.pieceLength call.piece) else inner.view other := by
  rw [finishWrite, view_touch, view_noteDirty, view_notePartial, view_copyIn, view_noteRace, view_noteCreated]
  by_cases same : call.piece = other
  · subst same
    have flushing : (inner.noteCreated created call.piece).flushing = inner.flushing := by
      unfold noteCreated
      split <;> rfl
    by_cases busy : call.piece ∈ inner.flushing
    · cases created <;> simp [flushing, busy, PieceView.received, PieceView.fresh, view]
    · cases created <;> simp [flushing, busy, PieceView.received, PieceView.fresh, view]
  · simp [same]

theorem view_beginFlush : (inner.beginFlush index).view other =
    if index = other then (inner.view other).begun else inner.view other := by
  split
  next same =>
    subst same
    simp [beginFlush, view, PieceView.begun]
  next differs => simp [beginFlush, view, Ne.symm differs]

theorem markSavedPartial_frame : inner.markSavedPartial index =
      { inner with savedPartial := (inner.markSavedPartial index).savedPartial } := by
  unfold markSavedPartial
  split <;> rfl

theorem arrivedMeanwhile_eq : inner.arrivedMeanwhile index = (inner.view index).arrivedMeanwhile := by
  unfold arrivedMeanwhile PieceView.arrivedMeanwhile
  simp [view]

theorem view_publishFlush (wrote : Bool) : (inner.publishFlush index wrote).2.view other =
    if index = other then (inner.view other).published else inner.view other := by
  have marked : ∀ released : StorageInner, (if wrote then released.markSavedPartial index else released) =
        { released with savedPartial :=
            (if wrote then released.markSavedPartial index else released).savedPartial } := by
    intro released
    split
    · exact released.markSavedPartial_frame index
    · rfl
  unfold publishFlush
  dsimp only
  rw [arrivedMeanwhile_eq, marked]
  by_cases same : index = other
  · subst same
    unfold PieceView.published PieceView.released
    cases (inner.view index).arrivedMeanwhile <;> simp [view, get_insert]
  · rw [if_neg same]
    cases (inner.view index).arrivedMeanwhile <;>
      simp [view, get_insert, same, Ne.symm same]

theorem view_publishFill (len : Nat) (data : Nat -> UInt8) : (inner.publishFill index len data).view other =
    if index = other then (inner.view other).filled len data else inner.view other := by
  by_cases same : index = other
  · subst same
    unfold publishFill PieceView.filled
    cases written : inner.partialSlots.lookup index with
    | none => simp [view, written]
    | some kept =>
      cases found : inner.cache.lookup index with
      | none => simp [view, written, found]
      | some slot =>
        by_cases fits : slot.len = len
        · simp [view, written, found, fits]
        · simp [view, written, found, fits]
  · rw [if_neg same]
    unfold publishFill
    split
    · split
      · simp [view, lookup_insert_eq, lookup_erase_eq, same]
      · rfl
    · rfl

end StorageInner

/-! ## Making room -/

/-- A slot that is in the files, and that nobody is writing to them, may be gone. -/
def PieceView.Lost (before after : PieceView) : Prop :=
  after = before ∨ after = before.dropped /\ before.dirty = false /\ before.flushing = false

theorem PieceView.Lost.trans {first second third : PieceView} (earlier : first.Lost second)
    (later : second.Lost third) : first.Lost third := by
  rcases earlier with rfl | ⟨rfl, clean, free⟩
  · exact later
  right
  rcases later with rfl | ⟨rfl, _, _⟩
  · exact ⟨rfl, clean, free⟩
  · exact ⟨rfl, clean, free⟩

structure SameShape (before after : StorageInner) : Prop where
  chunkLength : after.chunkLength = before.chunkLength
  totalLength : after.totalLength = before.totalLength
  files : after.files = before.files

theorem SameShape.refl (inner : StorageInner) : SameShape inner inner :=
  ⟨rfl, rfl, rfl⟩

theorem SameShape.trans {first second third : StorageInner} (earlier : SameShape first second)
    (later : SameShape second third) : SameShape first third :=
  ⟨later.chunkLength.trans earlier.chunkLength, later.totalLength.trans earlier.totalLength,
    later.files.trans earlier.files⟩

namespace StorageInner

variable (inner : StorageInner) (index : Nat)

theorem sameShape_dropCache : SameShape inner (inner.dropCache index) := by
  unfold dropCache
  split <;> exact ⟨rfl, rfl, rfl⟩

theorem sameShape_finishWrite (created : Bool) (call : WriteCall) :
    SameShape inner (inner.finishWrite created call) := by
  have created_ : ∀ inner : StorageInner, SameShape inner (inner.noteCreated created call.piece) := by
    intro inner
    unfold noteCreated
    split <;> exact ⟨rfl, rfl, rfl⟩
  have race : ∀ inner : StorageInner, SameShape inner (inner.noteRace call.piece call.range) := by
    intro inner
    unfold noteRace
    split <;> exact ⟨rfl, rfl, rfl⟩
  have copy : ∀ inner : StorageInner, SameShape inner (inner.copyIn call.piece call.range call.data) := by
    intro inner
    unfold copyIn
    split <;> exact ⟨rfl, rfl, rfl⟩
  have partly : ∀ (inner : StorageInner) (expected : Nat),
      SameShape inner (inner.notePartial call.piece call.range expected) := by
    intro inner expected
    unfold notePartial
    split
    · exact .refl inner
    · split <;> exact ⟨rfl, rfl, rfl⟩
  have dirty : ∀ inner : StorageInner,
      SameShape inner ((inner.noteDirty call.piece call.range).touch call.piece) :=
    fun _ => ⟨rfl, rfl, rfl⟩
  exact ((((created_ _).trans (race _)).trans (copy _)).trans (partly _ _)).trans (dirty _)

theorem sameShape_publishFlush (wrote : Bool) : SameShape inner (inner.publishFlush index wrote).2 := by
  have marked : ∀ released : StorageInner, SameShape released
      (if wrote then released.markSavedPartial index else released) := by
    intro released
    split
    · rw [markSavedPartial_frame]
      exact ⟨rfl, rfl, rfl⟩
    · exact .refl released
  unfold publishFlush
  dsimp only
  split
  · exact ⟨(marked _).chunkLength, (marked _).totalLength, (marked _).files⟩
  · exact ⟨(marked _).chunkLength, (marked _).totalLength, (marked _).files⟩

theorem sameShape_publishFill (len : Nat) (data : Nat -> UInt8) :
    SameShape inner (inner.publishFill index len data) := by
  unfold publishFill
  split
  · split <;> exact ⟨rfl, rfl, rfl⟩
  · exact .refl inner

variable {inner : StorageInner}

theorem cleanVictim_spec {index victim : Nat} {verifiedOnly : Bool}
    (found : inner.cleanVictim index verifiedOnly = some victim) :
    victim ≠ index /\ (inner.view victim).dirty = false /\ (inner.view victim).flushing = false := by
  have chosen := List.find?_some found
  simp only [Bool.and_eq_true, bne_iff_ne, decide_eq_true_eq, Bool.not_eq_true'] at chosen
  exact ⟨chosen.1.1.1, chosen.1.2, decide_eq_false chosen.1.1.2⟩

theorem dirtyVictim_ne {index victim : Nat}
    (found : inner.dirtyVictim index = some victim) : victim ≠ index := by
  have chosen := List.find?_some found
  simp only [Bool.and_eq_true, bne_iff_ne] at chosen
  exact chosen.1

structure RoomMade (index expected : Nat) (before : StorageInner) (outcome : CacheSlot)
    (after : StorageInner) : Prop where
  shape : SameShape before after
  others : ∀ other, other ≠ index -> (before.view other).Lost (after.view other)
  own : after.view index =
    if outcome = .ready true then (before.view index).made expected else before.view index
  victim : ∀ victim, outcome = .flushFirst victim -> victim ≠ index
  made : outcome ≠ .ready false

variable {after : StorageInner} {outcome : CacheSlot}

/-- Without a new slot, all that happened is that some slots went. -/
theorem RoomMade.lost {index expected : Nat} {before : StorageInner}
    (room : RoomMade index expected before outcome after) (unmade : outcome ≠ .ready true)
    (piece : Nat) : (before.view piece).Lost (after.view piece) := by
  by_cases here : piece = index
  · subst here
    exact .inl (room.own.trans (if_neg unmade))
  · exact room.others piece here

theorem roomMade_makeRoom {index expected rounds : Nat}
    (found : makeRoom index expected rounds inner = some (outcome, after)) :
    RoomMade index expected inner outcome after := by
  induction rounds generalizing inner with
  | zero => cases found
  | succ rounds ih =>
    rw [makeRoom] at found
    split at found
    · cases found
      refine ⟨⟨rfl, rfl, rfl⟩, fun other differs => Or.inl ?_, ?_, nofun, nofun⟩
      · rw [view_makeSlot, if_neg differs.symm]
      · rw [view_makeSlot, if_pos rfl, if_pos rfl]
    · split at found
      next victim chosen =>
        -- A slot that is in the files goes, and the search goes on.
        have spec : victim ≠ index /\ (inner.view victim).dirty = false /\
            (inner.view victim).flushing = false := by
          rcases or_eq_some_iff.mp chosen with first | ⟨_, second⟩
          · exact cleanVictim_spec first
          · exact cleanVictim_spec second
        have untouched : (inner.dropCache victim).view index = inner.view index := by
          rw [view_dropCache, if_neg (fun here => spec.1 here.1)]
        have rest := ih found
        refine ⟨(inner.sameShape_dropCache victim).trans rest.shape, fun other differs => ?_, ?_,
          rest.victim, rest.made⟩
        · refine PieceView.Lost.trans ?_ (rest.others other differs)
          rw [view_dropCache]
          split
          next here =>
            rw [<- here.1]
            exact .inr ⟨rfl, spec.2.1, spec.2.2⟩
          · exact .inl rfl
        · rw [rest.own, untouched]
      · split at found
        next victim chosen =>
          cases found
          refine ⟨.refl _, fun _ _ => Or.inl rfl, (if_neg CacheSlot.noConfusion).symm, ?_, nofun⟩
          intro other same
          cases same
          exact dirtyVictim_ne chosen
        · cases found
          exact ⟨.refl _, fun _ _ => Or.inl rfl, (if_neg CacheSlot.noConfusion).symm, nofun, nofun⟩

theorem ensureCacheSlot_spec {index expected : Nat}
    (length : ∀ slot, (inner.view index).slot = some slot -> slot.len = expected)
    (found : inner.ensureCacheSlot index expected = some (outcome, after)) :
    (inner.view index).slot.isSome = true /\ outcome = .ready false /\ SameShape inner after /\
      (∀ other, after.view other = inner.view other) \/
    (inner.view index).slot = none /\ RoomMade index expected inner outcome after := by
  unfold ensureCacheSlot at found
  split at found
  next existing there =>
    rw [if_pos (length existing there)] at found
    cases found
    refine .inl ⟨?_, rfl, ⟨rfl, rfl, rfl⟩, fun _ => rfl⟩
    rw [view, there]
    rfl
  next missing => exact .inr ⟨missing, roomMade_makeRoom found⟩

end StorageInner
end TorrentPlayer.Storage
