import TorrentPlayer.Storage.Views

namespace TorrentPlayer.Storage

open Library PieceView Ranges Option

/-!
# One stored piece

A piece as the store sees it: what its maps say, what the files hold, and which
positions a write has accepted.  All writes bring the bytes of one content.

Three kinds of calls rely on the piece while they do not have the lock: a flush
that writes spans of its slot, a write that goes to the files directly, and a
fill that reads the files.  The lemmas say what each change of the piece leaves
of that.  A fill alone can be hurt, by a slot that is made anew.
-/

structure PieceState where
  view : PieceView
  disk : Nat -> UInt8
  accepted : Nat -> Bool

namespace PieceState

variable (content : Nat -> UInt8) (len : Nat)

/-- What holds of a piece whenever nobody has the lock. -/
structure Stored (state : PieceState) : Prop where
  length : ∀ slot, state.view.slot = some slot -> slot.len = len
  dirty : state.view.dirty = state.view.spans.isSome
  present : state.view.spans.isSome = true -> state.view.slot.isSome = true
  spanBytes : ∀ slot spans position, state.view.slot = some slot ->
    state.view.spans = some spans -> spans.Covers position ->
    slot.byte position = content position
  spanWritten : ∀ written spans position, state.view.written = some written ->
    state.view.spans = some spans -> spans.Covers position -> written.Covers position
  writtenBytes : ∀ slot written position, state.view.slot = some slot ->
    state.view.written = some written -> written.Covers position ->
    slot.byte position = content position
  /-- A slot that does not say what it received has everything. -/
  wholeBytes : ∀ slot position, state.view.slot = some slot ->
    state.view.written = none -> state.accepted position = true ->
    slot.byte position = content position
  /-- An accepted byte is in the files, or in the slot under a dirty span. -/
  safe : ∀ position, state.accepted position = true -> state.disk position = content position ∨
      Exists fun spans => state.view.spans = some spans /\ spans.Covers position
  arrivedSpans : ∀ arrived position, state.view.arrived = some arrived -> arrived.Covers position ->
    Exists fun spans => state.view.spans = some spans /\ spans.Covers position
  inside : ∀ position, state.accepted position = true -> position < len
  spanInside : ∀ spans position, state.view.spans = some spans -> spans.Covers position -> position < len

/-- A flush is in progress that has the positions `left` still to write. -/
structure Flushes (state : PieceState) (left : Nat -> Prop) : Prop where
  present : state.view.slot.isSome = true
  flushing : state.view.flushing = true
  spans : ∀ spans position, state.view.spans = some spans -> spans.Covers position ->
    left position ∨ state.disk position = content position ∨ state.view.raced = true /\
        Exists fun arrived => state.view.arrived = some arrived /\ arrived.Covers position

/-- A write goes to the files directly. -/
structure Passes (state : PieceState) : Prop where
  missing : state.view.slot = none
  flushing : state.view.flushing = true

/-- A fill is in progress that has the positions `left` still to read.  What it
has read is good, except where the slot has newer bytes. -/
def Fills (state : PieceState) (left : Nat -> Prop) (data : Nat -> UInt8) : Prop :=
  ∀ written, state.view.slot.isSome = true -> state.view.written = some written ->
    ∀ position, state.accepted position = true ->
      left position ∨ data position = content position ∨ written.Covers position

/-- What a change leaves to every call.  A slot that was made anew may hurt a
fill. -/
structure Keeps (renewed : Bool) (before after : PieceState) : Prop where
  stored : Stored content len after
  disk : ∀ position, before.disk position = content position -> after.disk position = content position
  accepted : ∀ position, before.accepted position = true -> after.accepted position = true
  fills : renewed = false -> ∀ left data, Fills content before left data -> Fills content after left data

/-- What a change leaves to the call that owns the piece, too. -/
structure Respects (renewed : Bool) (before after : PieceState) : Prop
    extends Keeps content len renewed before after where
  flushes : ∀ left, Flushes content before left -> Flushes content after left
  passes : Passes before -> Passes after

variable {content : Nat -> UInt8} {len : Nat}
variable {state : PieceState} {range : ByteRange} {data : Nat -> UInt8}

section
variable (stored : Stored content len state)
include stored

theorem Respects.refl : Respects content len false state state where
  stored := stored
  disk := fun _ same => same
  accepted := fun _ same => same
  fills := fun _ _ _ same => same
  flushes := fun _ same => same
  passes := fun same => same

theorem Stored.writeDisk {disk : Nat -> UInt8}
    (more : ∀ position, state.disk position = content position -> disk position = content position) :
    Respects content len false state { state with disk := disk } where
  stored :=
    { stored with
      safe := fun position accepted => (stored.safe position accepted).imp (more position) id }
  disk := more
  accepted := fun _ same => same
  fills := fun _ _ _ same => same
  flushes := fun _ flushes =>
    ⟨flushes.present, flushes.flushing, fun spans position found covers =>
      (flushes.spans spans position found covers).imp id (Or.imp (more position) id)⟩
  passes := fun passes => ⟨passes.missing, passes.flushing⟩

theorem Stored.spans_none (clean : state.view.dirty = false) : state.view.spans = none := by
  rw [stored.dirty] at clean
  exact isSome_eq_false_iff.mp clean |> isNone_iff_eq_none.mp

/-- A slot that is in the files goes. -/
theorem Stored.lose {view : PieceView} (lost : state.view.Lost view) :
    Respects content len false state { state with view := view } := by
  rcases lost with rfl | ⟨rfl, clean, free⟩
  · exact .refl stored
  have none := stored.spans_none clean
  have inFiles : ∀ position, state.accepted position = true ->
      state.disk position = content position := by
    intro position accepted
    rcases stored.safe position accepted with there | ⟨spans, found, _⟩
    · exact there
    rw [none] at found
    cases found
  refine ⟨⟨?_, fun _ same => same, fun _ same => same, ?_⟩, ?_, ?_⟩
  · refine ⟨?_, rfl, ?_, ?_, ?_, ?_, ?_, fun position accepted => Or.inl ?_, ?_, stored.inside, ?_⟩
    · nofun
    · nofun
    · nofun
    · nofun
    · nofun
    · nofun
    · exact inFiles position accepted
    · nofun
    · nofun
  · nofun
  · intro left flushes
    rw [flushes.flushing] at free
    cases free
  · intro passes
    rw [passes.flushing] at free
    cases free

end

/-! ## Receiving a range -/

section Receive
variable (content len)

structure Brings (range : ByteRange) (data : Nat -> UInt8) : Prop where
  inside : ∀ position, range.Contains position -> position < len
  data : ∀ position, range.Contains position -> data position = content position

end Receive

/-- A write has copied its range into the slot. -/
def receive (state : PieceState) (range : ByteRange) (data : Nat -> UInt8) (len : Nat) : PieceState :=
  { state with
    view := state.view.received range data len
    accepted := fun position => state.accepted position || decide (range.Contains position) }

variable {position : Nat}

theorem covers_getD {spans : Option Ranges} : ((spans.getD empty).insert range).Covers position <->
    range.Contains position \/ Exists fun old => spans = some old /\ old.Covers position := by
  rw [covers_insert]
  cases spans with
  | none | some => simp

theorem received_written {view : PieceView} {len : Nat} {written : Ranges}
    (found : (view.received range data len).written = some written) :
    Exists fun old => view.written = some old /\ written = old.insert range := by
  rcases filter_eq_some_iff.mp found with ⟨mapped, _⟩
  rcases map_eq_some_iff.mp mapped with ⟨old, there, same⟩
  exact ⟨old, there, same.symm⟩

theorem received_whole {view : PieceView}
    {len : Nat} (whole : (view.received range data len).written = none) : view.written = none \/
    Exists fun old => view.written = some old /\ ∀ position < len, (old.insert range).Covers position := by
  cases there : view.written with
  | none => exact .inl rfl
  | some old =>
    refine .inr ⟨old, rfl, fun position inside => ?_⟩
    have dropped := filter_eq_none_iff.mp whole (old.insert range) (by rw [there]; rfl)
    simp only [decide_not, Bool.not_eq_true', decide_eq_false_iff_not, not_not] at dropped
    exact dropped.covers inside

theorem accepted_or (accepted : (state.accepted position || decide (range.Contains position)) = true) :
    state.accepted position = true \/ range.Contains position :=
  (Bool.or_eq_true_iff.mp accepted).imp_right of_decide_eq_true

theorem Stored.inside_or (stored : Stored content len state)
    (inside : ∀ position, range.Contains position -> position < len)
    (accepted : (state.accepted position || decide (range.Contains position)) = true) :
    position < len :=
  (accepted_or accepted).elim (stored.inside position) (inside position)

theorem receive_slot {after : Slot} (there : (state.receive range data len).view.slot = some after) :
    Exists fun slot => state.view.slot = some slot /\ after = slot.write range data := by
  rcases map_eq_some_iff.mp there with ⟨slot, found, same⟩
  exact ⟨slot, found, same.symm⟩

theorem covers_receive_spans {spans : Ranges}
    (isSpans : (state.receive range data len).view.spans = some spans) : spans.Covers position <->
    range.Contains position \/ Exists fun old => state.view.spans = some old /\ old.Covers position := by
  rw [<- Option.some.inj isSpans, covers_getD]

theorem Brings.byte (brings : Brings content len range data) {slot : Slot}
    (either : range.Contains position \/ slot.byte position = content position) :
    (slot.write range data).byte position = content position := by
  by_cases brought : range.Contains position
  · exact (if_pos brought).trans (brings.data position brought)
  · exact (if_neg brought).trans (either.resolve_left brought)

theorem Stored.stored_receive (stored : Stored content len state) (present : state.view.slot.isSome = true)
    (brings : Brings content len range data) : Stored content len (state.receive range data len) := by
  refine ⟨?_, rfl, fun _ => ?_, ?_, ?_, ?_, ?_, ?_, ?_, ?_, ?_⟩
  · intro after there
    rcases receive_slot there with ⟨slot, found, rfl⟩
    exact stored.length slot found
  · rw [PieceState.receive, PieceView.received, isSome_map]
    exact present
  · intro after spans position there isSpans covers
    rcases receive_slot there with ⟨slot, found, rfl⟩
    refine brings.byte (((covers_receive_spans isSpans).mp covers).imp_right ?_)
    rintro ⟨old, foundOld, held⟩
    exact stored.spanBytes slot old position found foundOld held
  · intro written spans position isWritten isSpans covers
    rcases received_written isWritten with ⟨before, foundBefore, rfl⟩
    refine (Ranges.covers_insert ..).mpr (((covers_receive_spans isSpans).mp covers).imp_right ?_)
    rintro ⟨old, foundOld, held⟩
    exact stored.spanWritten before old position foundBefore foundOld held
  · intro after written position there isWritten covers
    rcases receive_slot there with ⟨slot, found, rfl⟩
    rcases received_written isWritten with ⟨before, foundBefore, rfl⟩
    exact brings.byte (((Ranges.covers_insert ..).mp covers).imp_right
      (stored.writtenBytes slot before position found foundBefore))
  · intro after position there isWhole accepted
    rcases receive_slot there with ⟨slot, found, rfl⟩
    apply brings.byte
    rcases received_whole isWhole with whole | ⟨before, foundBefore, all⟩
    · exact (accepted_or accepted).symm.imp_right (stored.wholeBytes slot position found whole)
    have covers := all position (stored.inside_or brings.inside accepted)
    exact ((Ranges.covers_insert ..).mp covers).imp_right
      (stored.writtenBytes slot before position found foundBefore)
  · intro position accepted
    rcases accepted_or accepted with old | brought
    · refine (stored.safe position old).imp_right ?_
      rintro ⟨spans, foundSpans, held⟩
      exact ⟨_, rfl, covers_getD.mpr (Or.inr ⟨spans, foundSpans, held⟩)⟩
    · exact .inr ⟨_, rfl, covers_getD.mpr (Or.inl brought)⟩
  · intro arrived position isArrived covers
    refine ⟨_, rfl, covers_getD.mpr ?_⟩
    simp only [PieceState.receive, PieceView.received] at isArrived
    split at isArrived
    · rw [<- Option.some.inj isArrived, covers_getD] at covers
      refine covers.imp_right ?_
      rintro ⟨old, foundOld, held⟩
      exact stored.arrivedSpans old position foundOld held
    · exact .inr (stored.arrivedSpans arrived position isArrived covers)
  · intro position
    exact stored.inside_or brings.inside
  · intro spans position isSpans covers
    rcases (covers_receive_spans isSpans).mp covers with brought | ⟨old, foundOld, held⟩
    · exact brings.inside position brought
    · exact stored.spanInside old position foundOld held

theorem Flushes.receive {left : Nat -> Prop} (flushes : Flushes content state left) :
    Flushes content (state.receive range data len) left := by
  have busy := flushes.flushing
  have arrivedAfter : (state.receive range data len).view.arrived =
      some ((state.view.arrived.getD Ranges.empty).insert range) :=
    if_pos busy
  have racedAfter : (state.receive range data len).view.raced = true := by
    rw [PieceState.receive, PieceView.received]
    rw [busy, Bool.or_true]
  refine ⟨?_, busy, ?_⟩
  · rw [PieceState.receive, PieceView.received, isSome_map]
    exact flushes.present
  · intro spans position isSpans covers
    rcases (covers_receive_spans isSpans).mp covers with brought | ⟨old, foundOld, held⟩
    · exact .inr (Or.inr ⟨racedAfter, _, arrivedAfter, covers_getD.mpr (Or.inl brought)⟩)
    refine (flushes.spans old position foundOld held).imp_right (Or.imp_right ?_)
    rintro ⟨_, arrived, isArrived, late⟩
    exact ⟨racedAfter, _, arrivedAfter, covers_getD.mpr (Or.inr ⟨arrived, isArrived, late⟩)⟩

theorem Stored.receive (stored : Stored content len state) (present : state.view.slot.isSome = true)
    (brings : Brings content len range data) :
    Respects content len false state (state.receive range data len) := by
  refine ⟨⟨stored.stored_receive present brings, fun _ same => same, fun position old => ?_, ?_⟩,
    fun _ flushes => flushes.receive, ?_⟩
  · exact Bool.or_eq_true_iff.mpr (Or.inl old)
  · intro _ left read fills written _ isWritten position accepted
    rcases received_written isWritten with ⟨before, foundBefore, rfl⟩
    rw [Ranges.covers_insert]
    rcases accepted_or accepted with old | brought
    · exact (fills before present foundBefore position old).imp_right (Or.imp_right Or.inr)
    · exact .inr (Or.inr (Or.inl brought))
  · intro passes
    rw [passes.missing] at present
    cases present

theorem Stored.renew (stored : Stored content len state) (missing : state.view.slot = none)
    (free : state.view.flushing = false) :
    Respects content len true state { state with view := (state.view.made len).fresh } := by
  have none : state.view.spans = none := by
    cases found : state.view.spans with
    | none => rfl
    | some =>
      have present := stored.present (by rw [found]; rfl)
      rw [missing] at present
      cases present
  refine ⟨⟨?_, fun _ same => same, fun _ same => same, ?_⟩, ?_, ?_⟩
  · refine ⟨?_, ?_, ?_, ?_, ?_, ?_, ?_, stored.safe, stored.arrivedSpans, stored.inside, stored.spanInside⟩
    · intro slot found
      cases found
      rfl
    · exact stored.dirty
    · intro _
      rfl
    · intro slot spans position _ found
      exact absurd (none.symm.trans found) (some_ne_none spans).symm
    · intro written spans position _ found
      exact absurd (none.symm.trans found) (some_ne_none spans).symm
    · intro slot written position _ found covers
      rw [<- Option.some.inj found] at covers
      exact absurd covers (not_covers_empty position)
    · nofun
  · nofun
  · intro left flushes
    rw [flushes.flushing] at free
    cases free
  · intro passes
    rw [passes.flushing] at free
    cases free

theorem Respects.trans {first second third : PieceState} {renewed : Bool}
    (earlier : Respects content len renewed first second)
    (later : Respects content len false second third) :
    Respects content len renewed first third where
  stored := later.stored
  disk := fun position there => later.disk position (earlier.disk position there)
  accepted := fun position old => later.accepted position (earlier.accepted position old)
  fills := fun kept left data fills => later.fills rfl left data (earlier.fills kept left data fills)
  flushes := fun left flushes => later.flushes left (earlier.flushes left flushes)
  passes := fun passes => later.passes (earlier.passes passes)

theorem Stored.beginFlush (stored : Stored content len state) :
    Keeps content len false state { state with view := state.view.begun } where
  stored :=
    { stored with
      arrivedSpans := by
        intro arrived position found
        cases found }
  disk := fun _ same => same
  accepted := fun _ same => same
  fills := fun _ _ _ fills => fills

theorem flushes_begun (present : state.view.slot.isSome = true) {left : Nat -> Prop}
    (planned : ∀ spans position, state.view.spans = some spans -> spans.Covers position ->
      left position) : Flushes content { state with view := state.view.begun } left :=
  ⟨present, rfl, fun spans position found covers => Or.inl (planned spans position found covers)⟩

variable (stored : Stored content len state)
include stored

theorem Stored.publishFlush (flushes : Flushes content state (fun _ => False)) :
    Keeps content len false state { state with view := state.view.published } := by
  -- What is left is what arrived meanwhile, and those are spans of the slot.
  have left : ∀ arrived position, state.view.arrivedMeanwhile = some arrived -> arrived.Covers position ->
      Exists fun spans => state.view.spans = some spans /\ spans.Covers position := by
    intro arrived position found covers
    unfold arrivedMeanwhile at found
    split at found
    · exact stored.arrivedSpans arrived position (filter_eq_some_iff.mp found).1 covers
    · cases found
  refine ⟨⟨stored.length, rfl, fun _ => flushes.present, ?_, ?_, stored.writtenBytes,
    stored.wholeBytes, ?_, ?_, stored.inside, ?_⟩, fun _ same => same, fun _ same => same,
    fun _ _ _ fills => fills⟩
  · intro slot arrived position there found covers
    rcases left arrived position found covers with ⟨spans, isSpans, held⟩
    exact stored.spanBytes slot spans position there isSpans held
  · intro written arrived position isWritten found covers
    rcases left arrived position found covers with ⟨spans, isSpans, held⟩
    exact stored.spanWritten written spans position isWritten isSpans held
  · intro position accepted
    rcases stored.safe position accepted with there | ⟨spans, isSpans, held⟩
    · exact .inl there
    rcases flushes.spans spans position isSpans held with none | there | ⟨raced, arrived, late, covers⟩
    · exact none.elim
    · exact .inl there
    · refine .inr ⟨arrived, ?_, covers⟩
      have kept : state.view.arrivedMeanwhile = some arrived := by
        unfold arrivedMeanwhile
        rw [if_pos raced, late, filter_some, flushes.present, Bool.and_true, if_pos]
        rcases covers with ⟨range, member, _⟩
        rw [Bool.not_eq_true', List.isEmpty_eq_false_iff]
        exact List.ne_nil_of_mem member
      exact kept
  · nofun
  · intro arrived position found covers
    rcases left arrived position found covers with ⟨spans, isSpans, held⟩
    exact stored.spanInside spans position isSpans held

theorem Stored.beginThrough : Keeps content len false state
      { state with view := { state.view with flushing := true } } where
  stored := { stored with }
  disk := fun _ same => same
  accepted := fun _ same => same
  fills := fun _ _ _ fills => fills

theorem Stored.endThrough (missing : state.view.slot = none)
    (inside : ∀ position, range.Contains position -> position < len)
    (written : ∀ position, range.Contains position -> state.disk position = content position) :
    Keeps content len false state { state with
        view := { state.view with flushing := false }
        accepted := fun position =>
          state.accepted position || decide (range.Contains position) } := by
  refine ⟨⟨stored.length, stored.dirty, stored.present, stored.spanBytes, stored.spanWritten,
    stored.writtenBytes, ?_, ?_, stored.arrivedSpans, ?_, stored.spanInside⟩,
    fun _ same => same, ?_, ?_⟩
  · intro slot position there
    rw [missing] at there
    cases there
  · intro position accepted
    rcases accepted_or accepted with old | brought
    · exact stored.safe position old
    · exact .inl (written position brought)
  · intro position
    exact stored.inside_or inside
  · intro position old
    exact Bool.or_eq_true_iff.mpr (Or.inl old)
  · intro _ left data _ _ present
    rw [missing] at present
    cases present

theorem Stored.publishFill (fills : Fills content state (fun _ => False) data) :
    Respects content len false state { state with view := state.view.filled len data } := by
  cases isWritten : state.view.written with
  | none =>
    have same : state.view.filled len data = state.view := by
      unfold filled
      rw [isWritten]
    rw [same]
    exact .refl stored
  | some written =>
    cases found : state.view.slot with
    | none =>
      have same : state.view.filled len data = state.view := by
        unfold filled
        rw [isWritten, found]
      rw [same]
      exact .refl stored
    | some slot =>
      have after : state.view.filled len data =
          { state.view with slot := some (slot.fill written data), written := none } := by
        unfold filled
        rw [isWritten, found]
        exact if_pos (stored.length slot found)
      have present : state.view.slot.isSome = true := by
        rw [found]
        rfl
      rw [after]
      refine ⟨⟨⟨?_, stored.dirty, fun _ => rfl, ?_, ?_, ?_, ?_, stored.safe,
        stored.arrivedSpans, stored.inside, stored.spanInside⟩, fun _ same => same,
        fun _ same => same, ?_⟩, ?_, ?_⟩
      · intro filled there
        cases there
        exact stored.length slot found
      · intro filled spans position there isSpans covers
        cases there
        have held := stored.spanWritten written spans position isWritten isSpans covers
        exact (if_pos held).trans (stored.spanBytes slot spans position found isSpans covers)
      · nofun
      · nofun
      · intro filled position there _ accepted
        cases there
        by_cases held : written.Covers position
        · exact (if_pos held).trans (stored.writtenBytes slot written position found isWritten held)
        refine (if_neg held).trans ?_
        rcases fills written present isWritten position accepted with none | good | held
        · exact none.elim
        · exact good
        · contradiction
      · nofun
      · intro left flushes
        exact ⟨rfl, flushes.flushing, flushes.spans⟩
      · intro passes
        rw [passes.missing] at found
        cases found

theorem Stored.filled_written (data : Nat -> UInt8)
    {slot : Slot} (found : (state.view.filled len data).slot = some slot) :
    (state.view.filled len data).written = none := by
  unfold filled at *
  cases isWritten : state.view.written with
  | none => simp only [isWritten]
  | some =>
    cases there : state.view.slot with
    | none => simp [isWritten, there] at found
    | some before => simp only [if_pos (stored.length before there)]

end PieceState
end TorrentPlayer.Storage
