import TorrentPlayer.Storage.Attach

namespace TorrentPlayer.Storage

open Library List

/-!
# Attach calls that fail

A call that returns an error should leave the storage as it was, so that the app
may try again.  Most checks come before the first change.  Three changes come
before a step that can fail: a file with bytes in it is noted while later files
are still to be opened, the handles and flags are set before the prepared bytes
are written, and Direct Play releases a preview before it looks at the request.
-/

/-- What a failed call has to leave alone. -/
structure Unchanged (before after : LayoutInner) : Prop where
  attached : after.attached = before.attached
  stream : after.stream = before.stream
  needsVerify : after.needsVerify = before.needsVerify
  files : after.files = before.files
  handles : after.handles = before.handles
  limit : after.maxCacheBytes = before.maxCacheBytes
  cache : after.cache = before.cache
  cacheDirty : after.cacheDirty = before.cacheDirty
  cacheBytes : after.cacheBytes = before.cacheBytes
  dirtySpans : after.dirtySpans = before.dirtySpans
  flushNew : after.flushNew = before.flushNew
  partialSlots : after.partialSlots = before.partialSlots
  savedPartial : after.savedPartial = before.savedPartial
  cacheOrder : after.cacheOrder = before.cacheOrder
  completed : after.completed = before.completed

theorem Unchanged.refl (inner : LayoutInner) : Unchanged inner inner :=
  ⟨rfl, rfl, rfl, rfl, rfl, rfl, rfl, rfl, rfl, rfl, rfl, rfl, rfl, rfl, rfl⟩

section
variable {Failure Value : Type}

theorem isOk_ok (value : Value) : (Except.ok value : Except Failure Value).isOk = true := rfl

theorem isOk_error (failure : Failure) : (Except.error failure : Except Failure Value).isOk = false := rfl

end

variable (answers : FileAnswers)

def FileAnswers.opens (descriptor : Option Int) : Bool :=
  (match descriptor with
    | some fd => decide (0 <= fd)
    | none => answers.createDirAll.isNone) &&
    (answers.opened.isOk && (answers.metadata.isOk && answers.setLen.isNone))

/-- The file was handed in and has bytes in it. -/
def FileAnswers.showsData (descriptor : Option Int) : Bool :=
  match descriptor, answers.opened, answers.metadata with
  | some fd, .ok _, .ok size => decide (0 <= fd) && decide (0 < size)
  | _, _, _ => false

theorem isOk_sizeFile (length found size : Nat) (external : Bool) :
    (sizeFile answers length found size external).isOk = answers.setLen.isNone := by
  unfold sizeFile
  cases answers.setLen <;> rfl

theorem openFile_spec (index length : Nat) (descriptor : Option Int) :
    (openFile answers index length descriptor).1.isOk = answers.opens descriptor /\
    (openFile answers index length descriptor).2 = answers.showsData descriptor := by
  unfold openFile FileAnswers.opens FileAnswers.showsData
  cases descriptor with
  | none =>
    cases answers.createDirAll <;> cases answers.opened <;> cases answers.metadata <;>
      simp [isOk_ok, isOk_error, isOk_sizeFile]
  | some fd =>
    dsimp only
    split
    · have outside : ¬ 0 <= fd := by omega
      cases answers.opened <;> cases answers.metadata <;>
        simp [isOk_ok, isOk_error, outside]
    · have inside : 0 <= fd := by omega
      cases answers.opened <;> cases answers.metadata <;>
        simp [isOk_ok, isOk_error, isOk_sizeFile, inside]

/-- Every file can be opened and sized. -/
def FileSystem.allOpen (system : FileSystem) : Nat -> List (FileDescriptor × Option Int) -> Bool
  | _, [] => true
  | index, (_, descriptor) :: rest =>
    (system.answers index).opens descriptor && system.allOpen (index + 1) rest

/-- A file with bytes in it was handed in, among the files up to the first that
cannot be opened. -/
def FileSystem.seesData (system : FileSystem) : Nat -> List (FileDescriptor × Option Int) -> Bool
  | _, [] => false
  | index, (_, descriptor) :: rest =>
    (system.answers index).showsData descriptor ||
      (system.answers index).opens descriptor && system.seesData (index + 1) rest

theorem openFiles_spec (system : FileSystem) (index : Nat) (files : List (FileDescriptor × Option Int)) :
    (openFiles system index files).1.isOk = system.allOpen index files /\
    (openFiles system index files).2 = system.seesData index files := by
  induction files generalizing index with
  | nil => exact ⟨rfl, rfl⟩
  | cons file rest ih =>
    rcases file with ⟨file, descriptor⟩
    have first := openFile_spec (system.answers index) index file.length descriptor
    have later := ih (index + 1)
    rw [openFiles, FileSystem.allOpen, FileSystem.seesData, <- first.1, <- first.2, <- later.1, <- later.2]
    cases openFile (system.answers index) index file.length descriptor with
    | mk answer =>
      cases answer with
      | error => simp [isOk_error]
      | ok =>
        cases openFiles system (index + 1) rest with
        | mk answers => cases answers <;> simp [isOk_ok, isOk_error]

/-- The lengths of the parts of a range, one for each file that has some of it. -/
def partLengths (start stop : Nat) (files : List FileDescriptor) : List Nat :=
  (files.map (fun file => min stop (file.offset + file.length) - max start file.offset)).filter (0 < ·)

section
variable (write : Nat -> Option String) (files : List FileDescriptor)

theorem writeLoop_nowOpen (start stop done writes : Nat) (file : FileDescriptor) :
    writeLoop write start stop ((file :: files).map FileDescriptor.nowOpen) done writes =
      if min stop (file.offset + file.length) <= max start file.offset then
        writeLoop write start stop (files.map FileDescriptor.nowOpen) done writes
      else match write writes with
        | some text => (.error (.io text), writes + 1)
        | none => writeLoop write start stop (files.map FileDescriptor.nowOpen)
          (done + (min stop (file.offset + file.length) - max start file.offset)) (writes + 1) :=
  rfl

/-- The loop makes one write for each part, and ends with the first that fails. -/
theorem writeLoop_spec (start stop : Nat) (done writes : Nat) :
    let parts := partLengths start stop files
    ((∀ count < parts.length, write (writes + count) = none) /\
      writeLoop write start stop (files.map FileDescriptor.nowOpen) done writes =
        (.ok (done + parts.sum), writes + parts.length)) \/
    (¬ ∀ count < parts.length, write (writes + count) = none) /\ Exists fun failure => Exists fun later =>
      writeLoop write start stop (files.map FileDescriptor.nowOpen) done writes =
        (.error failure, later) := by
  induction files generalizing done writes with
  | nil => exact .inl ⟨nofun, rfl⟩
  | cons file rest ih =>
    rw [writeLoop_nowOpen, partLengths, map_cons, filter_cons]
    simp only [decide_eq_true_eq]
    by_cases empty : min stop (file.offset + file.length) <= max start file.offset
    · rw [if_pos empty, if_neg (by omega)]
      exact ih done writes
    rw [if_neg empty, if_pos (by omega), length_cons, sum_cons]
    have first : (∀ count < (partLengths start stop rest).length + 1, write (writes + count) = none) <->
        write writes = none /\ ∀ count < (partLengths start stop rest).length,
          write (writes + 1 + count) = none := by
      refine Nat.forall_lt_succ_left.trans (and_congr_right fun _ => forall₂_congr fun count _ => ?_)
      rw [Nat.add_right_comm]
      rfl
    cases answer : write writes with
    | some =>
      refine .inr ⟨fun all => ?_, _, _, rfl⟩
      rw [(first.mp all).1] at answer
      cases answer
    | none =>
      dsimp only
      rcases ih (done + (min stop (file.offset + file.length) - max start file.offset))
        (writes + 1) with ⟨all, found⟩ | ⟨some_, found⟩
      · refine .inl ⟨first.mpr ⟨answer, all⟩, found.trans ?_⟩
        rw [Nat.add_assoc, Nat.add_assoc, Nat.add_comm 1]
        rfl
      · exact .inr ⟨fun all => some_ (first.mp all).2, found⟩

/-- The parts of the files that a range goes to. -/
def rangeParts (range : ByteRange) : List Nat :=
  partLengths range.start (max range.start range.stop)
    (filesOverlapping files range.start (max range.start range.stop))

theorem filesOverlapping_nowOpen (start stop : Nat) :
    filesOverlapping (files.map FileDescriptor.nowOpen) start stop =
      (filesOverlapping files start stop).map FileDescriptor.nowOpen := by
  rw [filesOverlapping, dropWhile_map, takeWhile_map]
  rfl

theorem writeRanges_eq_none_iff (ranges : List ByteRange) (writes : Nat) :
    (writeRanges write (files.map FileDescriptor.nowOpen) ranges writes).1 = none <->
      (∀ range ∈ ranges, (rangeParts files range).sum = range.stop - range.start) /\
      ∀ count < (ranges.flatMap (rangeParts files)).length, write (writes + count) = none := by
  induction ranges generalizing writes with
  | nil => exact ⟨fun _ => ⟨nofun, nofun⟩, fun _ => rfl⟩
  | cons range rest ih =>
    have stop : range.start + (range.stop - range.start) = max range.start range.stop := by omega
    rw [writeRanges, writeRange, stop, filesOverlapping_nowOpen, forall_mem_cons, flatMap_cons, length_append]
    have split : (∀ count < (rangeParts files range).length + (rest.flatMap (rangeParts files)).length,
        write (writes + count) = none) <->
        (∀ count < (rangeParts files range).length, write (writes + count) = none) /\
        ∀ count < (rest.flatMap (rangeParts files)).length,
          write (writes + (rangeParts files range).length + count) = none := by
      simp only [<- mem_range, range_add, forall_mem_append, forall_mem_map, Nat.add_assoc]
    rw [split]
    have loop := writeLoop_spec write (filesOverlapping files range.start (max range.start range.stop))
      range.start (max range.start range.stop) 0 writes
    rw [<- rangeParts] at loop
    rcases loop with ⟨all, found⟩ | ⟨some_, _, _, found⟩
    · rw [found, Nat.zero_add]
      dsimp only
      by_cases covered : (rangeParts files range).sum = range.stop - range.start
      · rw [if_pos covered]
        dsimp only
        rw [ih, and_iff_right covered]
        exact and_congr_right fun _ => (and_iff_right all).symm
      · rw [if_neg covered]
        exact ⟨nofun, fun both => absurd both.1.1 covered⟩
    · rw [found]
      exact ⟨nofun, fun both => absurd both.2.1 some_⟩

end

/-! ## The answers -/

namespace LayoutInner

/-- The prepared bytes all belong to a file, and every write of them succeeds. -/
def WritesSucceed (inner : LayoutInner) (system : FileSystem) : Prop :=
  (∀ range ∈ inner.preparedRanges, (rangeParts inner.files range).sum = range.stop - range.start) ∧
    ∀ count < (inner.preparedRanges.flatMap (rangeParts inner.files)).length, system.write count = none

def writeFailure (inner : LayoutInner) (system : FileSystem) : Option StorageError :=
  (writeRanges system.write (inner.files.map FileDescriptor.nowOpen) inner.preparedRanges 0).1

variable (inner : LayoutInner) (system : FileSystem) (noted : Bool) (request : AttachRequest)

theorem writePrepared_installed (handles : List FileHandle) :
    ((inner.noteVerify noted).installed handles).writePrepared system = inner.writeFailure system := rfl

theorem writeFailure_eq_none_iff : inner.writeFailure system = none <-> inner.WritesSucceed system := by
  have spec := writeRanges_eq_none_iff system.write inner.files inner.preparedRanges 0
  simp only [Nat.zero_add] at spec
  exact spec

theorem fst_attachDownload : (inner.attachDownload system request).1 = match checkDownload inner request with
      | some failure => .error failure
      | none =>
        match (openFiles system 0 (inner.files.zip request.descriptors)).1 with
        | .error failure => .error failure
        | .ok _ =>
          match inner.writeFailure system with
          | some failure => .error failure
          | none => .ok () := by
  rw [attachDownload]
  cases checkDownload inner request with
  | some => rfl
  | none =>
    cases openFiles system 0 (inner.files.zip request.descriptors) with
    | mk answer =>
      cases answer with
      | error => rfl
      | ok =>
        dsimp only
        rw [writePrepared_installed]
        cases inner.writeFailure system <;> rfl

theorem directPlayMinimum_released :
    inner.releasePreviewTemp.beginDirect.directPlayMinimum = inner.directPlayMinimum := by
  unfold releasePreviewTemp
  split <;> rfl

theorem fst_attachDirectPlay :
    (inner.attachDirectPlay system request).1 = if inner.closed || !inner.hasInfo then
        .error (.other "storage closed or missing info") else
        match checkDirect inner.releasePreviewTemp request with
        | some failure => .error failure
        | none =>
          if maxRamCacheBytes < inner.directPlayMinimum then
            .error (.other "piece exceeds direct play memory budget; use Download")
          else .ok () := by
  rw [attachDirectPlay]
  split
  · rfl
  dsimp only
  cases checkDirect inner.releasePreviewTemp request with
  | some => rfl
  | none =>
    dsimp only
    rw [directPlayMinimum_released]
    split <;> rfl

/-- The two states answer every call alike. -/
def AnswersLike (after before : LayoutInner) : Prop :=
  ∀ (system : FileSystem) (request : AttachRequest) (stream : Bool),
    (after.attachDescriptorsMode system request stream).1 =
      (before.attachDescriptorsMode system request stream).1

theorem attached_releasePreviewTemp :
    inner.releasePreviewTemp.attached = (inner.attached && !inner.previewTemp) := by
  unfold releasePreviewTemp
  cases preview : inner.previewTemp with
  | false => exact (Bool.and_true _).symm
  | true => exact (Bool.and_false _).symm

theorem files_releasePreviewTemp : inner.releasePreviewTemp.files = inner.files := by
  unfold releasePreviewTemp
  split <;> rfl

/-- What the answers depend on beside the part that has to stay unchanged. -/
structure SameTorrent (before after : LayoutInner) : Prop where
  closed : after.closed = before.closed
  hasInfo : after.hasInfo = before.hasInfo
  chunkLength : after.chunkLength = before.chunkLength
  preview : (after.attached && !after.previewTemp) = (before.attached && !before.previewTemp)

/-- A call that changed nothing of importance does not stand in the way of the next. -/
theorem answersLike_of_unchanged {before after : LayoutInner} (same : Unchanged before after)
    (torrent : SameTorrent before after) : after.AnswersLike before := by
  intro system request stream
  cases stream with
  | false =>
    show (after.attachDownload system request).1 = (before.attachDownload system request).1
    have checks : checkDownload after request = checkDownload before request := by
      rw [checkDownload, checkDownload, torrent.closed, torrent.hasInfo, same.attached, same.files]
    have writes : after.writeFailure system = before.writeFailure system := by
      simp only [writeFailure, preparedRanges, StorageInner.address, same.cache,
        same.dirtySpans, same.files, torrent.chunkLength]
    rw [fst_attachDownload, fst_attachDownload, checks, writes, same.files]
  | true =>
    show (after.attachDirectPlay system request).1 = (before.attachDirectPlay system request).1
    have checks : checkDirect after.releasePreviewTemp request =
        checkDirect before.releasePreviewTemp request := by
      rw [checkDirect, checkDirect, attached_releasePreviewTemp, attached_releasePreviewTemp,
        files_releasePreviewTemp, files_releasePreviewTemp, torrent.preview, same.files]
    rw [fst_attachDirectPlay, fst_attachDirectPlay, checks, torrent.closed, torrent.hasInfo,
      directPlayMinimum, directPlayMinimum, torrent.chunkLength]

/-- The call succeeds, or leaves what matters alone and the next call as good as
before. -/
def FailsCleanly (inner : LayoutInner) (system : FileSystem) (request : AttachRequest)
    (stream : Bool) : Prop :=
  ∀ failure, (inner.attachDescriptorsMode system request stream).1 = .error failure ->
    Unchanged inner (inner.attachDescriptorsMode system request stream).2 /\
      (inner.attachDescriptorsMode system request stream).2.AnswersLike inner

/-- A download that fails cleanly, if it fails: the request is refused at once, or a
file cannot be opened and no file with bytes is noted for the first time, or all
files can be opened and all writes succeed. -/
def CleanDownload (inner : LayoutInner) (system : FileSystem) (request : AttachRequest) : Prop :=
  (checkDownload inner request).isSome = true ∨
    (system.allOpen 0 (inner.files.zip request.descriptors) = false /\ (inner.needsVerify = true ∨
        system.seesData 0 (inner.files.zip request.descriptors) = false)) ∨
    (system.allOpen 0 (inner.files.zip request.descriptors) = true /\ inner.WritesSucceed system)

theorem unchanged_noteVerify_iff :
    Unchanged inner (inner.noteVerify noted) <-> inner.needsVerify = true \/ noted = false := by
  constructor
  · intro same
    have verify : (inner.needsVerify || noted) = inner.needsVerify := same.needsVerify
    cases kept : inner.needsVerify with
    | true => exact .inl rfl
    | false =>
      rw [kept] at verify
      exact .inr verify
  · intro either
    have verify : (inner.needsVerify || noted) = inner.needsVerify := by
      rcases either with known | plain
      · rw [known, Bool.true_or]
      · rw [plain, Bool.or_false]
    exact ⟨rfl, rfl, verify, rfl, rfl, rfl, rfl, rfl, rfl, rfl, rfl, rfl, rfl, rfl, rfl⟩

theorem failsCleanly_download_iff :
    inner.FailsCleanly system request false <-> inner.CleanDownload system request := by
  have spec := openFiles_spec system 0 (inner.files.zip request.descriptors)
  rw [CleanDownload, <- spec.1, <- spec.2]
  show (∀ failure, (inner.attachDownload system request).1 = .error failure ->
    Unchanged inner (inner.attachDownload system request).2 /\
      (inner.attachDownload system request).2.AnswersLike inner) <-> _
  rw [attachDownload]
  cases check : checkDownload inner request with
  | some =>
    exact ⟨fun _ => Or.inl rfl, fun _ _ _ => ⟨Unchanged.refl inner, fun _ _ _ => rfl⟩⟩
  | none =>
    have open_ : inner.attached = false := by
      rw [checkDownload] at check
      cases attached : inner.attached with
      | false => rfl
      | true =>
        split at check
        · cases check
        split at check
        · cases check
        · cases check
    rw [Option.isSome_none, or_iff_right Bool.false_ne_true]
    cases openFiles system 0 (inner.files.zip request.descriptors) with
    | mk answer =>
      cases answer with
      | error failure =>
        rw [isOk_error, and_iff_right rfl, or_iff_left (fun both => Bool.false_ne_true both.1),
          <- unchanged_noteVerify_iff]
        constructor
        · intro clean
          exact (clean failure rfl).1
        · intro same _ _
          exact ⟨same, answersLike_of_unchanged same ⟨rfl, rfl, rfl, rfl⟩⟩
      | ok =>
        dsimp only
        rw [writePrepared_installed, isOk_ok, and_iff_right rfl, <- writeFailure_eq_none_iff,
          or_iff_right (fun both => Bool.false_ne_true both.1.symm)]
        cases inner.writeFailure system with
        | some failure =>
          refine ⟨fun clean => ?_, nofun⟩
          have attached := (clean failure rfl).1.attached
          rw [open_] at attached
          cases attached
        | none => exact ⟨fun _ => rfl, nofun⟩

/-! ## Direct Play -/

/-- A preview that holds nothing: releasing it changes neither the data nor the
attached flag. -/
structure HoldsNothing (inner : LayoutInner) : Prop where
  attached : inner.attached = false
  cache : inner.cache = ∅
  cacheDirty : inner.cacheDirty = ∅
  cacheBytes : inner.cacheBytes = 0
  dirtySpans : inner.dirtySpans = ∅
  flushNew : inner.flushNew = ∅
  partialSlots : inner.partialSlots = ∅
  savedPartial : inner.savedPartial = ∅
  cacheOrder : inner.cacheOrder = []
  completed : inner.completed = ∅

/-- A Direct Play call that fails cleanly, if it fails: the storage is closed or has
no metadata; or the request is refused and there is no preview to release; or
the pieces are too large, the flag and the limit are already those that the call
leaves, and there is no preview to release; or it succeeds. -/
def CleanDirect (inner : LayoutInner) (request : AttachRequest) : Prop :=
  (inner.closed || !inner.hasInfo) = true ∨
    if (checkDirect inner.releasePreviewTemp request).isSome = true then
      inner.previewTemp = true ->
        inner.HoldsNothing /\ inner.stream = false /\ inner.maxCacheBytes = inner.downloadMaxBytes
    else
      inner.directPlayMinimum <= maxRamCacheBytes ∨
        inner.stream = false /\ inner.maxCacheBytes = inner.streamLimit /\
          (inner.previewTemp = true -> inner.HoldsNothing)

theorem unchanged_release_iff : Unchanged inner inner.releasePreviewTemp <-> (inner.previewTemp = true ->
      inner.HoldsNothing /\ inner.stream = false /\ inner.maxCacheBytes = inner.downloadMaxBytes) := by
  unfold releasePreviewTemp
  cases preview : inner.previewTemp with
  | false => exact ⟨nofun, fun _ => Unchanged.refl inner⟩
  | true =>
    constructor
    · intro same _
      exact ⟨⟨same.attached.symm, same.cache.symm, same.cacheDirty.symm, same.cacheBytes.symm,
        same.dirtySpans.symm, same.flushNew.symm, same.partialSlots.symm,
        same.savedPartial.symm, same.cacheOrder.symm, same.completed.symm⟩, same.stream.symm,
        same.limit.symm⟩
    · intro nothing
      rcases nothing rfl with ⟨held, stream, limit⟩
      exact ⟨held.attached.symm, stream.symm, rfl, rfl, rfl, limit.symm, held.cache.symm,
        held.cacheDirty.symm, held.cacheBytes.symm, held.dirtySpans.symm, held.flushNew.symm,
        held.partialSlots.symm, held.savedPartial.symm, held.cacheOrder.symm,
        held.completed.symm⟩

theorem unchanged_giveUp_iff (free : (inner.attached && !inner.previewTemp) = false) :
    Unchanged inner inner.releasePreviewTemp.beginDirect.giveUpDirect <-> inner.stream = false /\
    inner.maxCacheBytes = inner.streamLimit /\ (inner.previewTemp = true -> inner.HoldsNothing) := by
  unfold releasePreviewTemp
  cases preview : inner.previewTemp with
  | false =>
    rw [preview, Bool.not_false, Bool.and_true] at free
    constructor
    · intro same
      exact ⟨same.stream.symm, same.limit.symm, nofun⟩
    · rintro ⟨stream, limit, _⟩
      exact ⟨free.symm, stream.symm, rfl, rfl, rfl, limit.symm, rfl, rfl, rfl, rfl, rfl, rfl,
        rfl, rfl, rfl⟩
  | true =>
    constructor
    · intro same
      exact ⟨same.stream.symm, same.limit.symm, fun _ => ⟨same.attached.symm, same.cache.symm,
        same.cacheDirty.symm, same.cacheBytes.symm, same.dirtySpans.symm, same.flushNew.symm,
        same.partialSlots.symm, same.savedPartial.symm, same.cacheOrder.symm,
        same.completed.symm⟩⟩
    · rintro ⟨stream, limit, nothing⟩
      have held := nothing rfl
      exact ⟨held.attached.symm, stream.symm, rfl, rfl, rfl, limit.symm, held.cache.symm,
        held.cacheDirty.symm, held.cacheBytes.symm, held.dirtySpans.symm, held.flushNew.symm,
        held.partialSlots.symm, held.savedPartial.symm, held.cacheOrder.symm,
        held.completed.symm⟩

theorem sameTorrent_released {inner after : LayoutInner} (closed : after.closed = inner.closed)
    (info : after.hasInfo = inner.hasInfo) (chunk : after.chunkLength = inner.chunkLength)
    (preview : after.previewTemp = false)
    (released : after.attached = inner.releasePreviewTemp.attached) : SameTorrent inner after := by
  refine ⟨closed, info, chunk, ?_⟩
  rw [preview, Bool.not_false, Bool.and_true, released, attached_releasePreviewTemp]

theorem released_fields : inner.releasePreviewTemp.closed = inner.closed /\
    inner.releasePreviewTemp.hasInfo = inner.hasInfo /\ inner.releasePreviewTemp.chunkLength =
    inner.chunkLength /\ inner.releasePreviewTemp.previewTemp = false := by
  unfold releasePreviewTemp
  cases preview : inner.previewTemp with
  | false => exact ⟨rfl, rfl, rfl, preview⟩
  | true => exact ⟨rfl, rfl, rfl, rfl⟩

theorem failsCleanly_direct_iff : inner.FailsCleanly system request true <-> inner.CleanDirect request := by
  rw [CleanDirect]
  show (∀ failure, (inner.attachDirectPlay system request).1 = .error failure ->
    Unchanged inner (inner.attachDirectPlay system request).2 /\
      (inner.attachDirectPlay system request).2.AnswersLike inner) <-> _
  rcases inner.released_fields with ⟨closed, info, chunk, preview⟩
  rw [attachDirectPlay]
  split
  next refused => exact ⟨fun _ => Or.inl refused, fun _ _ _ => ⟨Unchanged.refl inner, fun _ _ _ => rfl⟩⟩
  next able =>
    rw [or_iff_right able]
    dsimp only
    cases check : checkDirect inner.releasePreviewTemp request with
    | some failure =>
      rw [<- unchanged_release_iff]
      constructor
      · intro clean
        exact (clean failure rfl).1
      · intro same _ _
        exact ⟨same, answersLike_of_unchanged same (sameTorrent_released closed info chunk preview rfl)⟩
    | none =>
      have free : inner.releasePreviewTemp.attached = false := by
        rw [checkDirect] at check
        split at check
        · cases check
        · exact Bool.eq_false_of_not_eq_true ‹_›
      dsimp only
      rw [directPlayMinimum_released]
      split
      · rw [or_iff_right (by omega), <- unchanged_giveUp_iff inner
          (by rw [<- attached_releasePreviewTemp]; exact free)]
        constructor
        · intro clean
          exact (clean _ rfl).1
        · intro same _ _
          exact ⟨same, answersLike_of_unchanged same
            (sameTorrent_released closed info chunk preview free.symm)⟩
      · exact ⟨fun _ => Or.inl (by omega), nofun⟩

end LayoutInner

/-- When an attach call that fails leaves everything as it was. -/
theorem failed_attach_unchanged_iff (inner : LayoutInner) (system : FileSystem)
    (request : AttachRequest) (stream : Bool) : inner.FailsCleanly system request stream <->
      if stream then inner.CleanDirect request else inner.CleanDownload system request := by
  cases stream with
  | false => exact inner.failsCleanly_download_iff system request
  | true => exact inner.failsCleanly_direct_iff system request

def preparedPiece : LayoutInner where
  chunkLength := 4
  totalLength := 4
  numPieces := 1
  infoHash := Vector.replicate 20 0
  files := descriptors 0 [(4, "a")]
  handles := [{}]
  cache := (∅ : FiniteMap Nat Slot).insert 0 (Slot.zeros 4)
  cacheDirty := (∅ : Flags).insert 0 true
  cacheOrder := [0]
  cacheBytes := 4

def openSystem (write : Nat -> Option String) : FileSystem where
  answers := fun index => { opened := .ok index, metadata := .ok 0 }
  write := write

/-- The disk is full when the prepared piece is written.  The call returns the error
and leaves the storage attached, and a call without any fault is refused. -/
theorem failed_attach_stays_attached :
    let request : AttachRequest := { descriptors := [none], selected := [0] }
    let failed := preparedPiece.attachDescriptorsMode
      (openSystem (fun _ => some "No space left on device")) request false
    failed.1 = .error (.io "No space left on device") ∧
      preparedPiece.attached = false ∧ failed.2.attached = true ∧
      (failed.2.attachDescriptorsMode (openSystem (fun _ => none)) request false).1 =
        .error (.other "storage already configured") ∧
      (preparedPiece.attachDescriptorsMode (openSystem (fun _ => none)) request false).1 = .ok () := by
  decide +kernel

end TorrentPlayer.Storage
