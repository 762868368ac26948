import TorrentPlayer.Storage.SavedDownload
import TorrentPlayer.Storage.SparseHash

namespace TorrentPlayer.Storage

open Library StorageInner

/-!
# The hash of a piece

A piece is hashed where its bytes are.  A piece with a slot is read like any
other reader would read it, 64 KiB at a time.  A piece without one is hashed from
its files, with their holes.  A last path asks whether the whole piece is a hole.

The storage is that of a saved download that no other call is using, so a read or
a flush is one step here.
-/

/-- The state of a storage and its files with their bytes. -/
structure Store where
  inner : StorageInner
  files : List StoredFile

def PieceFlush.writes (plan : PieceFlush) : List (Nat × List UInt8) :=
  plan.parts.map (fun part =>
    (part.start, (List.range' part.start (part.stop - part.start)).map plan.data))

/-- Some writes, until one fails.  What was written stays. -/
def writeParts : List StoredFile -> List (Nat × List UInt8) -> Option StorageError × List StoredFile
  | files, [] => (none, files)
  | files, (start, data) :: rest =>
    match writeToFiles files start data with
    | (.error failure, after) => (some failure, after)
    | (.ok _, after) => writeParts after rest

/-- The reads of a plan, until one fails. -/
def readParts (files : List StoredFile) : List FileRead -> List UInt8 -> Except StorageError (List UInt8)
  | [], buffer => .ok buffer
  | span :: rest, buffer =>
    match files[span.file]? with
    | none => .error .unavailable
    | some file =>
      match readSpan file span buffer with
      | (some failure, _) => .error failure
      | (none, filled) => readParts files rest filled

def readPlanned (files : List StoredFile) (start count : Nat) : Except StorageError (List UInt8) :=
  match planReads files start count with
  | .error failure => .error failure
  | .ok spans => readParts files spans (List.replicate count 0)

namespace Store

variable (store : Store) (index : Nat)

/-- Write what a slot has that the files do not. -/
def flushPiece : Option StorageError × Store :=
  if store.inner.closed then (some .closed, store)
  else
    match store.inner.planPieceFlush index with
    | .error failure => (some failure, store)
    | .ok none => (none, store)
    | .ok (some plan) =>
      match writeParts store.files plan.writes with
      | (some failure, files) =>
        (some failure,
          { inner :=
              { store.inner with
                flushRaced := store.inner.flushRaced.erase index
                flushNew := store.inner.flushNew.erase index }
            files := files })
      | (none, files) =>
        (none,
          { inner :=
              ((store.inner.beginFlush index).publishFlush index (!plan.parts.isEmpty)).2
            files := files })

/-- Load a slot from the files, if a read needs bytes that it does not have. -/
def fillPartialSlot (offset count : Nat) : Option StorageError × Store :=
  if !store.inner.needsFill index { start := offset, stop := offset + count } then (none, store)
  else
    match store.flushPiece index with
    | (some failure, flushed) => (some failure, flushed)
    | (none, flushed) =>
      match flushed.inner.cache.lookup index, flushed.inner.partialSlots.lookup index with
      | some slot, some _ =>
        match readPlanned flushed.files (flushed.inner.address index 0) slot.len with
        | .error failure => (some failure, flushed)
        | .ok disk =>
          (none,
            { flushed with
              inner := flushed.inner.publishFill index slot.len
                (fun position => disk.getD position 0) })
      | _, _ => (none, flushed)

def readUncached (offset count : Nat) : Except StorageError (List UInt8) :=
  if !store.inner.attached then .error (.other "download storage is not configured")
  else
    readPlanned store.files (store.inner.address index offset)
      (min (store.inner.pieceLength index - offset) count)

/-- Read at most `count` bytes of a piece. -/
def readAt (offset count : Nat) : Except StorageError (List UInt8) × Store :=
  if store.inner.closed then (.error .closed, store)
  else if store.inner.pieceLength index <= offset then (.ok [], store)
  else if (store.inner.cache.lookup index).isNone then
    (store.readUncached index offset count, store)
  else
    match store.fillPartialSlot index offset count with
    | (some failure, after) => (.error failure, after)
    | (none, after) =>
      let touched := { after with inner := after.inner.touch index }
      match touched.inner.cache.lookup index with
      | none => (touched.readUncached index offset count, touched)
      | some slot =>
        (.ok ((List.range' offset (min (slot.len - offset) count)).map slot.byte), touched)

/-- Read a whole piece, 64 KiB at a time.  Every round reads something, so as many
rounds as there are bytes are enough. -/
def hashContents (index : Nat) : Nat -> Nat -> List UInt8 -> Store ->
    Except StorageError (List UInt8) × Store
  | 0, _, fed, store => (.ok fed, store)
  | rounds + 1, offset, fed, store =>
    if store.inner.pieceLength index <= offset then (.ok fed, store)
    else
      match store.readAt index offset (min (store.inner.pieceLength index - offset) (64 * 1024)) with
      | (.error failure, after) => (.error failure, after)
      | (.ok [], after) => (.error (.other "unexpected eof in piece read"), after)
      | (.ok (byte :: bytes), after) =>
        hashContents index rounds (offset + (byte :: bytes).length) (fed ++ byte :: bytes) after

def pieceSpans : Option (List FileSpan) :=
  if store.inner.closed || !store.inner.attached || store.inner.chunkLength == 0 then none
  else
    byteSpans store.files (store.inner.address index 0)
      (store.inner.address index 0 + store.inner.pieceLength index)

/-- Whether no file of a range has data in it, and whether that is known. -/
def probeHoles (probe : Seeks) (start stop : Nat) : Nat -> List StoredFile -> Bool -> Bool × Bool
  | _, [], sawSpan => (sawSpan, sawSpan)
  | index, file :: rest, sawSpan =>
    if ¬ file.Overlaps start stop then probeHoles probe start stop (index + 1) rest sawSpan
    else if !file.opened then (false, false)
    else
      match probe.data index (max start file.offset - file.offset) with
      | .unsupported => (false, false)
      | .none => probeHoles probe start stop (index + 1) rest true
      | .found position =>
        if position < min stop (file.offset + file.length) - file.offset then (false, true)
        else probeHoles probe start stop (index + 1) rest true

def pieceExtentAllHoles (probe : Seeks) (index : Nat) : Bool × Bool :=
  if store.inner.closed || !store.inner.attached || store.inner.chunkLength == 0 then (false, false)
  else if (store.inner.cache.lookup index).isSome then (false, true)
  else if store.inner.pieceLength index = 0 then (false, false)
  else
    probeHoles probe (store.inner.address index 0)
      (store.inner.address index 0 + store.inner.pieceLength index) 0 store.files false

section
variable {Digest : Type} (sha1 : List UInt8 -> Digest)

def zeroPieceHash (length : Nat) : Digest :=
  sha1 (List.replicate length 0)

/-- The hash of what `hashContents` reads. -/
def hashRead (store : Store) (index : Nat) : Except StorageError Digest :=
  (hashContents index (store.inner.pieceLength index) 0 [] store).1.map sha1

/-- The answers of the file system to the walk and to the last question are told
apart, since it may answer differently each time. -/
def selfHash (seeks probe : Seeks) (store : Store) (index : Nat) : Except StorageError Digest :=
  if (store.inner.cache.lookup index).isSome then hashRead sha1 store index
  else
    match (store.pieceSpans index).map (hashExtents store.files seeks) with
    | some (.ok (_, true)) => .ok (zeroPieceHash sha1 (store.inner.pieceLength index))
    | some (.ok (fed, false)) => .ok (sha1 fed)
    | _ =>
      if store.pieceExtentAllHoles probe index = (true, true) then
        .ok (zeroPieceHash sha1 (store.inner.pieceLength index))
      else hashRead sha1 store index

end
end Store

variable {files : List StoredFile}

theorem readParts_eq {start : Nat} {spans : List FileRead}
    (good : ∀ span ∈ spans, Exists fun file => files[span.file]? = some file /\
      span.LiesIn start file /\ file.length <= file.data.len) (buffer : List UInt8) :
    readParts files spans buffer = .ok (spans.foldl (fillSpan files) buffer) := by
  induction spans generalizing buffer with
  | nil => rfl
  | cons span rest ih =>
    rcases good span List.mem_cons_self with ⟨_, there, lies, full⟩
    rw [readParts, there]
    dsimp only
    rw [readSpan_eq there lies full]
    exact ih (fun other within => good other (List.mem_cons_of_mem _ within)) _

theorem readPlanned_eq {files : List StoredFile} (contiguous : Contiguous 0 (layout files))
    {start count : Nat} (inside : start + count <= totalLength (layout files))
    (opened : OpenFor files start (start + count)) (full : FullFor files start (start + count)) :
    readPlanned files start count = .ok ((List.range' start count).map (byteAt files)) := by
  have size : (List.replicate count (0 : UInt8)).length = count := List.length_replicate
  have whole : readFromFiles files start (List.replicate count 0) =
      .ok ((spansOf files start (start + count)).foldl (fillSpan files) (List.replicate count 0)) := by
    have read := @readFromFiles_eq files contiguous start (List.replicate count 0)
    rw [size] at read
    exact read inside opened full
  have bytes := readFromFiles_ok contiguous whole
  rw [size] at bytes
  have good : ∀ span ∈ spansOf files start (start + count),
      Exists fun file => files[span.file]? = some file /\ span.LiesIn start file /\
        file.length <= file.data.len := by
    intro span within
    rcases List.mem_map.mp within with ⟨⟨file, _⟩, member, same⟩
    rcases liesIn_of_mem_spansFrom member with ⟨_, there, lies, overlaps⟩
    rw [<- same]
    exact ⟨file, there, lies, full file (List.mem_of_getElem? there) overlaps⟩
  rw [readPlanned, planReads_eq contiguous inside opened]
  dsimp only
  rw [readParts_eq good, bytes, List.range'_eq_map_range, List.map_map]
  rfl

theorem writeParts_eq {after : List StoredFile} {writes : List (Nat × List UInt8)}
    (written : writeAll files writes = .ok after) : writeParts files writes = (none, after) := by
  induction writes generalizing files with
  | nil =>
    cases written
    rfl
  | cons write rest ih =>
    rcases write with ⟨start, data⟩
    rcases known : writeToFiles files start data with ⟨outcome, _⟩
    rw [writeAll, known] at written
    rw [writeParts, known]
    cases outcome with
    | error => cases written
    | ok => exact ih written

theorem lastWritten_writes (plan : PieceFlush) (position : Nat) : lastWritten plan.writes position =
    if Covered plan.parts position then some (plan.data position) else none := by
  rcases plan with ⟨parts, _⟩
  rw [PieceFlush.writes]
  induction parts with
  | nil => rw [List.map_nil, lastWritten, if_neg (covered_nil position)]
  | cons part rest ih =>
    rw [List.map_cons, lastWritten, ih, List.length_map, List.length_range']
    have own : part.start <= position /\ position < part.start + (part.stop - part.start) <->
        part.Contains position := by
      rw [ByteRange.Contains]
      omega
    by_cases later : Covered rest position
    · rw [if_pos later, if_pos ((covered_cons part rest position).mpr (Or.inr later))]
      rfl
    rw [if_neg later, Option.none_or]
    by_cases here : part.Contains position
    · have inside := own.mpr here
      have place : part.start + (position - part.start) = position := by omega
      rw [if_pos inside, if_pos ((covered_cons part rest position).mpr (Or.inl here)),
        List.getD_eq_getElem?_getD, List.getElem?_map, List.getElem?_range' (by omega),
        Option.map_some, Option.getD_some, Nat.one_mul, place]
    · rw [if_neg (fun inside => here (own.mp inside)), if_neg]
      rw [covered_cons]
      exact fun either => either.elim here later

/-! ## A storage at rest -/

structure SlotKept (len : Nat) (view : PieceView) : Prop where
  length : ∀ slot, view.slot = some slot -> slot.len = len
  /-- What is not in the files was received. -/
  spanWritten : ∀ written spans position, view.written = some written ->
    view.spans = some spans -> spans.Covers position -> written.Covers position
  spanInside : ∀ spans position, view.spans = some spans -> spans.Covers position -> position < len

/-- The slots of the write-back store are kept so. -/
theorem slotKept_of_runs {content : Nat -> UInt8} {labels : List StoreLabel} {world : World}
    (run : (World.machine content).RunsTo NoStaleFill labels world) (piece : Nat) :
    SlotKept (world.inner.pieceLength piece) (world.inner.view piece) := by
  have kept : Kept content none world :=
    run.stateInvariant (fun _ initial => kept_attached content initial)
      (fun _ _ _ kept noStale taken => kept.step noStale taken)
  have stored := kept.pieces piece
  exact ⟨stored.length, stored.spanWritten, stored.spanInside⟩

theorem slotKept_writeThenFill : Exists fun world : World => (world.inner.view 0).slot.isSome = true ∧
    SlotKept (world.inner.pieceLength 0) (world.inner.view 0) := by
  have run : (World.machine (fun _ => 7)).RunsTo NoStaleFill World.writeThenFill
      (((World.machine (fun _ => 7)).exec World.threePieces World.writeThenFill).getD World.threePieces) :=
    .of_exec World.threePieces_init (by decide +kernel) rfl
  exact ⟨_, by decide +kernel, slotKept_of_runs run 0⟩

namespace Store

/-- An attached storage that no call is using, and a piece that lies in its files. -/
structure AtRest (store : Store) (index : Nat) : Prop where
  notClosed : store.inner.closed = false
  attached : store.inner.attached = true
  files : layout store.files = store.inner.files
  contiguous : Contiguous 0 store.inner.files
  inside : store.inner.address index 0 + store.inner.pieceLength index <= totalLength store.inner.files
  opened : OpenFor store.files (store.inner.address index 0)
    (store.inner.address index 0 + store.inner.pieceLength index)
  full : FullFor store.files (store.inner.address index 0)
    (store.inner.address index 0 + store.inner.pieceLength index)
  slot : SlotKept (store.inner.pieceLength index) (store.inner.view index)

/-- The byte of a piece that a reader is to see. -/
def byte (store : Store) (index position : Nat) : UInt8 :=
  match store.inner.cache.lookup index, store.inner.partialSlots.lookup index with
  | none, _ => byteAt store.files (store.inner.address index position)
  | some slot, none => slot.byte position
  | some slot, some written =>
    if written.Covers position then slot.byte position
    else byteAt store.files (store.inner.address index position)

/-- What a read does to a storage: no byte of the piece changes. -/
structure Keeps (index : Nat) (store after : Store) : Prop where
  rest : after.AtRest index
  pieceLength : after.inner.pieceLength index = store.inner.pieceLength index
  bytes : ∀ position < store.inner.pieceLength index, after.byte index position = store.byte index position

section
variable {store : Store} {index : Nat}

theorem Keeps.refl (rest : store.AtRest index) : Keeps index store store :=
  ⟨rest, rfl, fun _ _ => rfl⟩

theorem Keeps.trans {middle after : Store} (first : Keeps index store middle)
    (second : Keeps index middle after) : Keeps index store after where
  rest := second.rest
  pieceLength := second.pieceLength.trans first.pieceLength
  bytes position below :=
    (second.bytes position (by rw [first.pieceLength]; exact below)).trans (first.bytes position below)

theorem byte_of_view {after : Store} (shape : SameShape store.inner after.inner)
    (slot : (after.inner.view index).slot = (store.inner.view index).slot)
    (written : (after.inner.view index).written = (store.inner.view index).written) (position : Nat)
    (disk : ∀ ranges, store.inner.partialSlots.lookup index = some ranges ->
      ¬ ranges.Covers position -> byteAt after.files (store.inner.address index position) =
      byteAt store.files (store.inner.address index position))
    (cached : (store.inner.cache.lookup index).isSome = true) :
    after.byte index position = store.byte index position := by
  have sameSlot : after.inner.cache.lookup index = store.inner.cache.lookup index := slot
  have sameWritten : after.inner.partialSlots.lookup index = store.inner.partialSlots.lookup index := written
  rcases Option.isSome_iff_exists.mp cached with ⟨_, isSlot⟩
  rw [byte, byte, sameSlot, sameWritten, isSlot, shape.address]
  cases isWritten : store.inner.partialSlots.lookup index with
  | none => rfl
  | some ranges =>
    dsimp only
    by_cases covers : ranges.Covers position
    · rw [if_pos covers, if_pos covers]
    · rw [if_neg covers, if_neg covers, disk ranges isWritten covers]

theorem AtRest.of_shape (rest : store.AtRest index) {after : Store}
    (shape : SameShape store.inner after.inner) (closed : after.inner.closed = store.inner.closed)
    (attached : after.inner.attached = store.inner.attached)
    (slot : SlotKept (store.inner.pieceLength index) (after.inner.view index))
    {writes : List (Nat × List UInt8)}
    (changed : List.Forall₂ (StoredFile.HasWrites writes) store.files after.files) :
    after.AtRest index where
  notClosed := closed.trans rest.notClosed
  attached := attached.trans rest.attached
  files := (layout_eq_of_hasWrites changed).trans (rest.files.trans shape.files.symm)
  contiguous := by
    rw [shape.files]
    exact rest.contiguous
  inside := by
    rw [shape.files, shape.address, shape.pieceLength]
    exact rest.inside
  opened := by
    rw [shape.address, shape.pieceLength]
    exact rest.opened.of_hasWrites changed
  full := by
    rw [shape.address, shape.pieceLength]
    exact rest.full.of_hasWrites changed
  slot := by
    rw [shape.pieceLength]
    exact slot

theorem AtRest.contiguousFiles (rest : store.AtRest index) : Contiguous 0 (layout store.files) := by
  rw [rest.files]
  exact rest.contiguous

theorem noWrites (files : List StoredFile) : List.Forall₂ (StoredFile.HasWrites []) files files :=
  List.forall₂_same.mpr (fun _ _ =>
    ⟨rfl, fun place => by rw [lastWritten, Option.getD_none, ite_self], Nat.le_refl _⟩)

/-! ## A flush -/

theorem publishFlush_mode (inner : StorageInner) (wrote : Bool) :
    (inner.publishFlush index wrote).2.closed = inner.closed /\
    (inner.publishFlush index wrote).2.attached = inner.attached := by
  unfold publishFlush
  dsimp only
  cases wrote with
  | false => split <;> exact ⟨rfl, rfl⟩
  | true =>
    rw [markSavedPartial_frame]
    split <;> exact ⟨rfl, rfl⟩

variable {written : Ranges} {slot : Slot}

theorem keeps_flushed (rest : store.AtRest index) {plan : PieceFlush}
    (cached : (store.inner.cache.lookup index).isSome = true)
    (isWritten : store.inner.partialSlots.lookup index = some written)
    (received : ∀ position, Covered plan.parts position ->
      written.Covers (position - store.inner.address index 0))
    (changed : List.Forall₂ (StoredFile.HasWrites plan.writes) store.files files) (wrote : Bool) :
    let after := ((store.inner.beginFlush index).publishFlush index wrote).2
    Keeps index store { inner := after, files := files } /\
      (after.view index).slot = (store.inner.view index).slot /\
      (after.view index).written = (store.inner.view index).written := by
  intro after
  have shape : SameShape store.inner after :=
    SameShape.trans (⟨rfl, rfl, rfl⟩ : SameShape store.inner (store.inner.beginFlush index))
      (sameShape_publishFlush _ _ _)
  have view : after.view index = (store.inner.view index).begun.published := by
    rw [view_publishFlush, if_pos rfl, view_beginFlush, if_pos rfl]
  have mode := @publishFlush_mode index (store.inner.beginFlush index) wrote
  have slot : (after.view index).slot = (store.inner.view index).slot := by
    rw [view]
    rfl
  have sameWritten : (after.view index).written = (store.inner.view index).written := by
    rw [view]
    rfl
  have spans : (after.view index).spans = none := by
    rw [view]
    rfl
  refine ⟨⟨?_, ?_, ?_⟩, slot, sameWritten⟩
  · refine rest.of_shape shape mode.1 mode.2 ⟨?_, ?_, ?_⟩ changed
    · intro found isSlot
      exact rest.slot.length found (slot.symm.trans isSlot)
    · intro _ ranges _ _ isSpans
      rw [spans] at isSpans
      cases isSpans
    · intro ranges _ isSpans
      rw [spans] at isSpans
      cases isSpans
  · exact congrFun shape.pieceLength index
  · intro position below
    refine byte_of_view shape slot sameWritten position ?_ cached
    intro ranges isRanges missing
    have fits := rest.inside
    have place : store.inner.address index position = store.inner.address index 0 + position := by
      rw [address, address, Nat.add_zero]
    rw [byteAt_of_hasWrites changed rest.contiguousFiles (Nat.zero_le _)
      (by rw [rest.files]; omega), lastWritten_writes, if_neg, Option.getD_none]
    intro covered
    have there := received _ covered
    rw [place, Nat.add_sub_cancel_left] at there
    rw [isRanges] at isWritten
    exact missing (by rw [Option.some.inj isWritten]; exact there)

def slotPlan (store : Store) (index : Nat) (slot : Slot) (parts : List ByteRange) : PieceFlush where
  parts := parts
  data := fun position => slot.byte (position - store.inner.address index 0)

structure Received (store : Store) (index : Nat) (written : Ranges) (plan : PieceFlush) : Prop where
  nonempty : ∀ part ∈ plan.parts, part.start < part.stop
  covered : ∀ position, Covered plan.parts position -> store.inner.address index 0 <= position /\
      position < store.inner.address index 0 + store.inner.pieceLength index /\
      written.Covers (position - store.inner.address index 0)

/-- What is planned for a slot that was not loaded: its dirty spans, or nothing. -/
theorem planPieceFlush_received (rest : store.AtRest index)
    (isSlot : store.inner.cache.lookup index = some slot)
    (isWritten : store.inner.partialSlots.lookup index = some written) :
    store.inner.planPieceFlush index = .ok none \/
    Exists fun plan => store.inner.planPieceFlush index = .ok (some plan) /\
      Received store index written plan := by
  cases dirty : store.inner.cacheDirty.get index with
  | false =>
    left
    rw [planPieceFlush, dirty]
    rfl
  | true =>
    right
    cases isSpans : store.inner.dirtySpans.lookup index with
    | none =>
      refine ⟨slotPlan store index slot [], ?_, ?_, ?_⟩
      · simp only [planPieceFlush, dirty, isSlot, isSpans, isWritten,
          Bool.not_true, Bool.false_eq_true, if_false]
        rfl
      · intro part member
        cases member
      · intro position covered
        exact absurd covered (covered_nil position)
    | some spans =>
      have openRange : OpenIn store.inner.files (store.inner.address index 0)
          (store.inner.address index 0 + store.inner.pieceLength index) := by
        intro descriptor member overlaps
        rw [<- rest.files] at member
        rcases List.mem_map.mp member with ⟨file, there, same⟩
        rw [<- same] at overlaps ⊢
        exact rest.opened file there overlaps
      rcases Kept.planSpans_ok rest.contiguous openRange (Or.inr rest.inside)
        (fun position covered => rest.slot.spanInside spans position isSpans covered) with
        ⟨parts, planned⟩
      refine ⟨slotPlan store index slot parts, ?_, ?_, ?_⟩
      · simp only [planPieceFlush, dirty, isSlot, isSpans, planned,
          Bool.not_true, Bool.false_eq_true, if_false]
        rfl
      · exact Kept.lt_of_mem_planSpans planned
      · intro position covered
        rcases (Kept.covered_planSpans rest.contiguous planned position).mp covered with
          ⟨above, inSpans⟩
        have below := rest.slot.spanInside spans _ isSpans inSpans
        exact ⟨above, by omega, rest.slot.spanWritten written spans _ isWritten isSpans inSpans⟩

theorem flushPiece_spec (rest : store.AtRest index) (isSlot : store.inner.cache.lookup index = some slot)
    (isWritten : store.inner.partialSlots.lookup index = some written) :
    Exists fun after => store.flushPiece index = (none, after) /\ Keeps index store after /\
    after.inner.cache.lookup index = some slot /\ after.inner.partialSlots.lookup index = some written := by
  rw [flushPiece, rest.notClosed]
  rcases planPieceFlush_received rest isSlot isWritten with none | ⟨plan, planned, received⟩
  · rw [none]
    exact ⟨store, rfl, .refl rest, isSlot, isWritten⟩
  have within : ∀ write ∈ plan.writes, store.inner.address index 0 <= write.1 /\ write.1 + write.2.length <=
          store.inner.address index 0 + store.inner.pieceLength index := by
    intro write member
    rcases List.mem_map.mp member with ⟨part, there, same⟩
    have some_ := received.nonempty part there
    have first := received.covered part.start ⟨part, there, ⟨Nat.le_refl _, some_⟩⟩
    have last := received.covered (part.stop - 1) ⟨part, there, ⟨by omega, by omega⟩⟩
    rw [<- same]
    rw [List.length_map, List.length_range']
    omega
  have fits : store.inner.address index 0 + store.inner.pieceLength index <=
      totalLength (layout store.files) := by
    rw [rest.files]
    exact rest.inside
  have cached : (store.inner.cache.lookup index).isSome = true := by
    rw [isSlot]
    rfl
  rcases writeAll_of_openFor rest.contiguousFiles rest.opened fits within with ⟨_, wrote⟩
  rcases keeps_flushed rest cached isWritten (fun position covered => (received.covered position covered).2.2)
    (hasWrites_of_writeAll rest.contiguousFiles wrote) (!plan.parts.isEmpty) with
    ⟨keeps, sameSlot, sameWritten⟩
  rw [planned]
  dsimp only
  rw [writeParts_eq wrote]
  exact ⟨_, rfl, keeps, sameSlot.trans isSlot, sameWritten.trans isWritten⟩

/-! ## A read -/

theorem publishFill_mode (inner : StorageInner) (len : Nat) (disk : Nat -> UInt8) :
    (inner.publishFill index len disk).closed = inner.closed /\
    (inner.publishFill index len disk).attached = inner.attached := by
  unfold publishFill
  split
  · split <;> exact ⟨rfl, rfl⟩
  · exact ⟨rfl, rfl⟩

section
variable (rest : store.AtRest index)
include rest

theorem keeps_filled (isSlot : store.inner.cache.lookup index = some slot)
    (isWritten : store.inner.partialSlots.lookup index = some written) {disk : Nat -> UInt8}
    (read : ∀ position < store.inner.pieceLength index,
      disk position = byteAt store.files (store.inner.address index position)) :
    let after := store.inner.publishFill index slot.len disk
    Keeps index store { store with inner := after } /\
      after.cache.lookup index = some (slot.fill written disk) /\
      ∀ position < store.inner.pieceLength index,
        (slot.fill written disk).byte position = store.byte index position := by
  intro after
  have view : after.view index =
      { store.inner.view index with slot := some (slot.fill written disk), written := none } := by
    rw [view_publishFill, PieceView.filled]
    simp only [view, isSlot, isWritten, if_true]
  have shape := store.inner.sameShape_publishFill index slot.len disk
  have mode := @publishFill_mode index store.inner slot.len disk
  have filledSlot : after.cache.lookup index = some (slot.fill written disk) := congrArg PieceView.slot view
  have filledWritten : after.partialSlots.lookup index = none := congrArg PieceView.written view
  have bytes : ∀ position < store.inner.pieceLength index,
      (slot.fill written disk).byte position = store.byte index position := by
    intro position below
    rw [Slot.fill, byte, isSlot, isWritten]
    dsimp only
    by_cases covers : written.Covers position
    · rw [if_pos covers, if_pos covers]
    · rw [if_neg covers, if_neg covers, read position below]
  refine ⟨⟨?_, congrFun shape.pieceLength index, ?_⟩, filledSlot, bytes⟩
  · refine rest.of_shape shape mode.1 mode.2 ⟨?_, ?_, ?_⟩ (noWrites store.files)
    · intro found isFound
      rw [view] at isFound
      cases isFound
      exact rest.slot.length slot isSlot
    · intro ranges _ _ isRanges
      rw [view] at isRanges
      cases isRanges
    · intro spans position isSpans covers
      rw [view] at isSpans
      exact rest.slot.spanInside spans position isSpans covers
  · intro position below
    rw [byte, filledSlot, filledWritten]
    exact bytes position below

theorem fillPartialSlot_spec (isSlot : store.inner.cache.lookup index = some slot)
    {offset count : Nat} (below : offset + count <= store.inner.pieceLength index) :
    Exists fun after => Exists fun filled => store.fillPartialSlot index offset count = (none, after) /\
    Keeps index store after /\ after.inner.cache.lookup index = some filled /\ ∀ position, offset <=
    position -> position < offset + count -> filled.byte position = store.byte index position := by
  cases isWritten : store.inner.partialSlots.lookup index with
  | none =>
    have loaded : store.inner.needsFill index ⟨offset, offset + count⟩ =
        false := by
      rw [needsFill, isWritten]
    rw [fillPartialSlot, loaded]
    refine ⟨store, slot, rfl, .refl rest, isSlot, ?_⟩
    intro position _ _
    rw [byte, isSlot, isWritten]
  | some written =>
    cases needs : store.inner.needsFill index ⟨offset, offset + count⟩ with
    | false =>
      have covers : rangesCover written.list offset (offset + count) = true := by
        rw [needsFill, isWritten] at needs
        simpa using needs
      rw [fillPartialSlot, needs]
      refine ⟨store, slot, rfl, .refl rest, isSlot, ?_⟩
      intro position above before
      rw [byte, isSlot, isWritten]
      dsimp only
      rw [if_pos (show written.Covers position from covered_of_rangesCover covers above before)]
    | true =>
      rcases flushPiece_spec rest isSlot isWritten with
        ⟨flushed, wrote, keeps, flushedSlot, flushedWritten⟩
      have length : slot.len = flushed.inner.pieceLength index :=
        keeps.rest.slot.length slot flushedSlot
      have fits := keeps.rest.inside
      rw [<- keeps.rest.files] at fits
      have read := readPlanned_eq keeps.rest.contiguousFiles fits keeps.rest.opened keeps.rest.full
      rw [fillPartialSlot, needs, wrote]
      dsimp only
      rw [flushedSlot, flushedWritten]
      dsimp only
      rw [length, read]
      rw [<- length]
      have disk : ∀ position < flushed.inner.pieceLength index,
          ((List.range' (flushed.inner.address index 0) (flushed.inner.pieceLength index)).map
            (byteAt flushed.files)).getD position 0 =
            byteAt flushed.files (flushed.inner.address index position) := by
        intro position before
        rw [List.getD_eq_getElem?_getD, List.getElem?_map, List.getElem?_range' before,
          Option.map_some, Option.getD_some, Nat.one_mul, address,
          address, Nat.add_zero]
      rcases keeps_filled keeps.rest flushedSlot flushedWritten disk with
        ⟨filled, isFilled, bytes⟩
      rw [<- length] at filled isFilled bytes
      refine ⟨_, _, rfl, keeps.trans filled, isFilled, ?_⟩
      intro position _ before
      have inside : position < store.inner.pieceLength index := by omega
      have same := keeps.pieceLength
      rw [bytes position (by omega), keeps.bytes position inside]

theorem keeps_touch : Keeps index store { store with inner := store.inner.touch index } :=
  ⟨rest.of_shape ⟨rfl, rfl, rfl⟩ rfl rfl rest.slot (noWrites store.files), rfl, fun _ _ => rfl⟩

theorem readAt_spec {offset count : Nat} (before : offset < store.inner.pieceLength index)
    (below : offset + count <= store.inner.pieceLength index) : Exists fun after =>
    store.readAt index offset count = (.ok ((List.range' offset count).map (store.byte index)), after) /\
    Keeps index store after := by
  rw [readAt, rest.notClosed, if_neg Bool.false_ne_true, if_neg (by omega)]
  cases isSlot : store.inner.cache.lookup index with
  | none =>
    have place : store.inner.address index offset = store.inner.address index 0 + offset := by
      rw [address, address, Nat.add_zero]
    have fits := rest.inside
    rw [<- rest.files] at fits
    have read := @readPlanned_eq store.files rest.contiguousFiles
      (store.inner.address index offset) count (by omega)
      (rest.opened.narrow (by omega) (by omega)) (rest.full.narrow (by omega) (by omega))
    have size : min (store.inner.pieceLength index - offset) count = count := by omega
    have shifted : (List.range' (store.inner.address index offset) count).map
        (byteAt store.files) = (List.range' offset count).map (store.byte index) := by
      rw [List.range'_eq_map_range, List.map_map, List.range'_eq_map_range, List.map_map]
      apply List.map_congr_left
      intro step _
      rw [Function.comp_apply, Function.comp_apply, byte, isSlot]
      rw [address, address, Nat.add_assoc]
    refine ⟨store, ?_, .refl rest⟩
    rw [Option.isNone_none, if_pos rfl, readUncached, rest.attached, Bool.not_true,
      if_neg Bool.false_ne_true, size, read, shifted]
  | some =>
    rcases fillPartialSlot_spec rest isSlot below with ⟨after, filled, done, keeps, isFilled, bytes⟩
    have length := keeps.rest.slot.length filled isFilled
    have same := keeps.pieceLength
    have size : min (filled.len - offset) count = count := by omega
    have kept : (after.inner.touch index).cache.lookup index = some filled := isFilled
    refine ⟨_, ?_, keeps.trans (keeps_touch keeps.rest)⟩
    rw [Option.isNone_some, if_neg Bool.false_ne_true, done]
    dsimp only
    rw [kept]
    dsimp only
    rw [size]
    congr 2
    apply List.map_congr_left
    intro position within
    have inside := List.mem_range'_1.mp within
    exact bytes position inside.1 inside.2

/-- The rounds of `hashContents` read the rest of the piece. -/
theorem hashContents_spec {rounds offset : Nat} (reached : offset <= store.inner.pieceLength index)
    (enough : store.inner.pieceLength index - offset <= rounds) (fed : List UInt8) :
    (hashContents index rounds offset fed store).1 =
    .ok (fed ++ (List.range' offset (store.inner.pieceLength index - offset)).map (store.byte index)) := by
  induction rounds generalizing store offset fed with
  | zero =>
    have none : store.inner.pieceLength index - offset = 0 := by omega
    rw [hashContents, none, List.range'_zero, List.map_nil, List.append_nil]
  | succ rounds ih =>
    rw [hashContents]
    by_cases past : store.inner.pieceLength index <= offset
    · have none : store.inner.pieceLength index - offset = 0 := by omega
      rw [if_pos past, none, List.range'_zero, List.map_nil, List.append_nil]
    rw [if_neg past]
    generalize counted : min (store.inner.pieceLength index - offset) (64 * 1024) = count
    have inside : offset + count <= store.inner.pieceLength index := by omega
    rcases readAt_spec rest (by omega) inside with ⟨after, read, keeps⟩
    have same := keeps.pieceLength
    cases chunk : (List.range' offset count).map (store.byte index) with
    | nil =>
      have lengths := congrArg List.length chunk
      rw [List.length_map, List.length_range', List.length_nil] at lengths
      omega
    | cons head tail =>
      have size : (head :: tail).length = count := by rw [<- chunk, List.length_map, List.length_range']
      rw [read, chunk]
      dsimp only
      rw [size, ih keeps.rest (by omega) (by omega), List.append_assoc, same, <- chunk]
      have later : (List.range' (offset + count)
          (store.inner.pieceLength index - (offset + count))).map (after.byte index) =
          (List.range' (offset + count)
            (store.inner.pieceLength index - (offset + count))).map (store.byte index) := by
        apply List.map_congr_left
        intro position within
        have bounds := List.mem_range'_1.mp within
        exact keeps.bytes position (by omega)
      rw [later, <- List.map_append, List.range'_append_1]
      congr 4
      omega

end

def contents (store : Store) (index : Nat) : List UInt8 :=
  (List.range' 0 (store.inner.pieceLength index)).map (store.byte index)

variable {Digest : Type} (sha1 : List UInt8 -> Digest) {seeks probe : Seeks}

theorem hashRead_eq (rest : store.AtRest index) :
    hashRead sha1 store index = .ok (sha1 (store.contents index)) := by
  rw [hashRead, hashContents_spec rest (Nat.zero_le _) (Nat.sub_le _ _)]
  rfl

theorem readAt_whole (rest : store.AtRest index) :
    (store.readAt index 0 (store.inner.pieceLength index)).1 = .ok (store.contents index) := by
  by_cases some_ : 0 < store.inner.pieceLength index
  · rcases readAt_spec rest some_ (Nat.le_of_eq (Nat.zero_add _)) with ⟨_, read, _⟩
    rw [read]
    rfl
  · have none : store.inner.pieceLength index = 0 := by omega
    rw [readAt, rest.notClosed, contents, none]
    rfl

/-! ## The hash -/

/-- The file system has told all spans of the piece from end to end, or refused at
the begin of a span; or it names no data and there are only zeros; or the slot is
read. -/
def HashedOnce (store : Store) (seeks : Seeks) (index : Nat) : Prop :=
  (store.inner.cache.lookup index).isSome = true ∨
    ∀ spans, store.pieceSpans index = some spans -> (∀ span ∈ spans, seeks.Whole span) ∨
        ∀ span ∈ spans, Unnoted store.files seeks span

theorem eq_of_digests {first second : List UInt8}
    (same : ∀ sha1 : List UInt8 -> Vector UInt8 20, sha1 first = sha1 second) : first = second := by
  have told := same (fun bytes => if bytes = second then Vector.replicate 20 0 else Vector.replicate 20 1)
  by_cases equal : first = second
  · exact equal
  rw [if_neg equal, if_pos rfl] at told
  have head := congrArg (fun digest => digest.toList.head?) told
  simp at head

theorem pieceSpans_spec (rest : store.AtRest index)
    (missing : store.inner.cache.lookup index = none) : Exists fun spans => store.pieceSpans index =
      (if store.inner.pieceLength index = 0 then none else some spans) /\
    (∀ span ∈ spans, Exists fun file => store.files[span.file]? = some file /\
      span.offset + span.length <= file.data.len) /\
    spans.flatMap (spanBytes store.files) = store.contents index := by
  have fits := rest.inside
  rw [<- rest.files] at fits
  rcases byteSpans_spec rest.contiguousFiles fits rest.opened rest.full with
    ⟨spans, found, within, bytes⟩
  refine ⟨spans, ?_, within, ?_⟩
  · rw [pieceSpans, rest.notClosed, rest.attached]
    cases chunks : store.inner.chunkLength == 0 with
    | true =>
      have none : store.inner.pieceLength index = 0 := by rw [pieceLength, eq_of_beq chunks, Nat.min_zero]
      rw [if_pos none]
      rfl
    | false => exact found
  · rw [bytes, contents, List.range'_eq_map_range, List.map_map, List.range'_eq_map_range, List.map_map]
    apply List.map_congr_left
    intro step _
    rw [Function.comp_apply, Function.comp_apply, byte, missing, address, address, Nat.add_zero, Nat.zero_add]

theorem selfHash_of_empty (rest : store.AtRest index) (missing : store.inner.cache.lookup index = none)
    (empty : store.inner.pieceLength index = 0) :
    selfHash sha1 seeks probe store index = .ok (sha1 (store.contents index)) := by
  rcases pieceSpans_spec rest missing with ⟨_, found, _⟩
  have unprobed : store.pieceExtentAllHoles probe index = (false, false) := by
    rw [pieceExtentAllHoles, missing]
    split <;> rfl
  rw [selfHash, missing, found, if_pos empty, unprobed]
  exact hashRead_eq sha1 rest

/-- What is hashed from the files: the bytes of the piece, with those before a
refusal twice. -/
theorem selfHash_of_files (missing : store.inner.cache.lookup index = none)
    (honest : ∀ (file : Nat) (stored : StoredFile), store.files[file]? = some stored ->
      seeks.TrueOf file stored.data)
    {spans : List FileSpan} (found : store.pieceSpans index = some spans)
    (within : ∀ span ∈ spans, Exists fun file => store.files[span.file]? = some file /\
      span.offset + span.length <= file.data.len)
    (bytes : spans.flatMap (spanBytes store.files) = store.contents index) :
    (∀ sha1 : List UInt8 -> Vector UInt8 20,
      selfHash sha1 seeks probe store index = .ok (sha1 (store.contents index))) <->
    ((∀ span ∈ spans, seeks.Whole span) \/ ∀ span ∈ spans, Unnoted store.files seeks span) := by
  have inside : ∀ span ∈ spans, Exists fun file => store.files[span.file]? = some file /\
        span.offset + span.length <= file.data.len /\ seeks.TrueOf span.file file.data := by
    intro span member
    rcases within span member with ⟨file, there, full⟩
    exact ⟨file, there, full, honest span.file file there⟩
  have refusals : ∀ span ∈ spans, ∀ place, seeks.refusal span = some place -> span.offset <= place := by
    intro span member place refused
    rcases inside span member with ⟨_, _, full, true_⟩
    rcases hashSpanSparse_spec true_ full (Nat.le_add_right span.offset span.length)
      (show span.offset + span.length - span.offset <= span.length by omega) {} with
      ⟨_, reached, _, stopped, above, _⟩
    rw [show seeks.refusedAt span.file (span.offset + span.length) span.length span.offset =
      some place from refused, Option.getD_some] at stopped
    omega
  rcases hashSpans_spec inside {} with ⟨walk, walked, fed, noted⟩
  rw [List.nil_append] at fed
  rw [and_iff_right rfl] at noted
  have extents : hashExtents store.files seeks spans = .ok (walk.fed, !walk.sawData) := by
    rw [hashExtents, walked]
    rfl
  have once := @fed_eq_iff store.files seeks spans refusals
  cases saw : walk.sawData with
  | false =>
    have unnoted := noted.mp saw
    have blank : ∀ byte ∈ store.contents index, byte = 0 := by
      rw [<- bytes]
      intro byte member
      rcases List.mem_flatMap.mp member with ⟨span, isSpan, here⟩
      exact (unnoted span isSpan).2 byte here
    have same : store.contents index = List.replicate (store.inner.pieceLength index) 0 := by
      rw [List.eq_replicate_iff]
      refine ⟨?_, blank⟩
      rw [contents, List.length_map, List.length_range']
    refine ⟨fun _ => Or.inr unnoted, fun _ sha1 => ?_⟩
    rw [selfHash, missing, found, Option.map_some, extents, saw, same]
    rfl
  | true =>
    have hashed : ∀ sha1 : List UInt8 -> Vector UInt8 20,
        selfHash sha1 seeks probe store index = .ok (sha1 walk.fed) := by
      intro sha1
      rw [selfHash, missing, found, Option.map_some, extents, saw]
      rfl
    rw [<- noted, saw, or_iff_left Bool.true_eq_false.mp, <- once, bytes, <- fed]
    constructor
    · intro all
      refine eq_of_digests (fun sha1 => ?_)
      have equal := (hashed sha1).symm.trans (all sha1)
      exact Except.ok.inj equal
    · intro same sha1
      rw [hashed, same]

end
end Store

/-- The hash of a piece is that of the bytes a read of the whole piece returns just
if its files are hashed once, or have nothing but holes, or the piece has a slot. -/
theorem self_hash_iff {store : Store} {index : Nat} {seeks probe : Seeks} (rest : store.AtRest index)
    (honest : forall (file : Nat) (stored : StoredFile), store.files[file]? = some stored ->
      seeks.TrueOf file stored.data) : Exists fun contents =>
      (store.readAt index 0 (store.inner.pieceLength index)).1 = .ok contents ∧
        ((forall sha1 : List UInt8 -> Vector UInt8 20,
            Store.selfHash sha1 seeks probe store index = .ok (sha1 contents)) <->
          store.HashedOnce seeks index) := by
  refine ⟨store.contents index, Store.readAt_whole rest, ?_⟩
  cases slot : store.inner.cache.lookup index with
  | some =>
    refine ⟨fun _ => Or.inl (by rw [slot]; rfl), fun _ sha1 => ?_⟩
    rw [Store.selfHash, slot]
    exact Store.hashRead_eq sha1 rest
  | none =>
    rcases Store.pieceSpans_spec rest slot with ⟨spans, found, within, bytes⟩
    have ram : ¬ (store.inner.cache.lookup index).isSome = true := by
      rw [slot]
      exact Bool.false_ne_true
    rw [Store.HashedOnce, or_iff_right ram]
    by_cases empty : store.inner.pieceLength index = 0
    · rw [if_pos empty] at found
      refine ⟨fun _ spans there => ?_, fun _ sha1 => Store.selfHash_of_empty sha1 rest slot empty⟩
      rw [found] at there
      cases there
    · rw [if_neg empty] at found
      rw [Store.selfHash_of_files slot honest found within bytes]
      constructor
      · intro holds other there
        rw [found] at there
        cases there
        exact holds
      · intro holds
        exact holds spans found

/-- One piece of two bytes in a file whose first byte is a hole. -/
def halfHole : Store where
  inner :=
    { chunkLength := 2
      totalLength := 2
      files := [{ offset := 0, length := 2, path := "film", opened := true }]
      attached := true }
  files :=
    [{ offset := 0, length := 2, path := "film", opened := true,
       data := { len := 2, byte := fun position => if position = 1 then 1 else 0 } }]

/-- A file system that knows where data begins, and answers a question about holes
as it is told. -/
def halfSeeks (hole : SeekAnswer) : Seeks where
  data := fun _ place => if place <= 1 then .found 1 else .none
  hole := fun _ _ => hole

theorem halfHole_atRest : halfHole.AtRest 0 where
  notClosed := rfl
  attached := rfl
  files := rfl
  contiguous := ⟨rfl, trivial⟩
  inside := by decide
  opened := by
    intro file within _
    rw [List.mem_singleton.mp within]
  full := by
    intro file within _
    rw [List.mem_singleton.mp within]
  slot := by
    refine ⟨?_, ?_, ?_⟩
    · nofun
    · nofun
    · nofun

theorem halfSeeks_trueOf (hole : SeekAnswer) (file : Nat) (stored : StoredFile)
    (there : halfHole.files[file]? = some stored) : (halfSeeks hole).TrueOf file stored.data := by
  have first : file = 0 := by
    have bound := (List.getElem?_eq_some_iff.mp there).1
    exact Nat.lt_one_iff.mp bound
  subst first
  have data : stored.data = { len := 2, byte := fun position => if position = 1 then 1 else 0 } :=
    (congrArg StoredFile.data (Option.some.inj there)).symm
  have zero : ∀ between, between ≠ 1 -> stored.data.get between = 0 := by
    intro between differs
    rw [data, FileData.get]
    dsimp only
    rw [if_neg differs, ite_self]
  refine ⟨?_, ?_⟩
  · intro place position found
    rw [halfSeeks] at found
    dsimp only at found
    split at found
    next before =>
      cases found
      exact ⟨before, fun between _ below => zero between (by omega)⟩
    · cases found
  · intro place none between above
    rw [halfSeeks] at none
    dsimp only at none
    split at none
    · cases none
    · exact zero between (by omega)

theorem self_hash_iff_halfHole : halfHole.HashedOnce (halfSeeks (.found 2)) 0 ∧
      (forall sha1 : List UInt8 -> Vector UInt8 20,
        Store.selfHash sha1 (halfSeeks (.found 2)) (halfSeeks .none) halfHole 0 = .ok (sha1 [0, 1])) := by
  have once : halfHole.HashedOnce (halfSeeks (.found 2)) 0 := by
    refine .inr (fun spans there => Or.inl ?_)
    have found : spans = [{ file := 0, offset := 0, length := 2 }] :=
      (Option.some.inj there).symm
    intro span within
    rw [found, List.mem_singleton] at within
    rw [within]
    decide +kernel
  refine ⟨once, ?_⟩
  rcases @self_hash_iff halfHole 0 (halfSeeks (.found 2)) (halfSeeks .none) halfHole_atRest
    (halfSeeks_trueOf _) with ⟨contents, read, hashed⟩
  have bytes : contents = [0, 1] := by
    have known : (halfHole.readAt 0 0 (halfHole.inner.pieceLength 0)).1 = .ok [0, 1] := rfl
    exact Except.ok.inj (read.symm.trans known)
  rw [<- bytes]
  exact hashed.mpr once

/-- The file system says where data begins, and then refuses: the hole before the
data is hashed twice. -/
theorem refusal_behind_hole_hashed_twice : halfHole.AtRest 0 ∧
      (forall (file : Nat) (stored : StoredFile), halfHole.files[file]? = some stored ->
        (halfSeeks .unsupported).TrueOf file stored.data) ∧
      (halfHole.readAt 0 0 (halfHole.inner.pieceLength 0)).1 = .ok [0, 1] ∧
      (forall (probe : Seeks) (sha1 : List UInt8 -> Vector UInt8 20),
        Store.selfHash sha1 (halfSeeks .unsupported) probe halfHole 0 = .ok (sha1 [0, 0, 1])) := by
  refine ⟨halfHole_atRest, halfSeeks_trueOf .unsupported, rfl, ?_⟩
  intro probe sha1
  rfl

end TorrentPlayer.Storage
