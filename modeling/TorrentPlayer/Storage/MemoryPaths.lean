import TorrentPlayer.Storage.SlotAllocation

namespace TorrentPlayer.Storage

open Library StorageInner StreamInner

/-!
# Reads and writes that stay in memory

`read_at_in_memory` and `write_at_in_memory` answer without leaving the lock, or not at all.
They decide for themselves whether `read_at` and `write_at` would work on the files.  This
module has the first section of each call under the lock: a call returns in it, or it gives
the lock away to wait for another call or to work on the files.

Offsets are unbounded here: a sum of offset and length that does not fit into 64 bits is left
out.
-/

namespace StreamInner

inductive ReadSection where
  | returns (answer : Except StorageError (List UInt8)) (after : StreamInner)
  /-- The slot is written to the files and then loaded from them. -/
  | fills
  | readsStartup (start count : Nat)
  | readsFiles (parts : List ByteRange)

def slotBytes (slot : Slot) (start count : Nat) : List UInt8 :=
  (List.range' start count).map slot.byte

variable (inner : StreamInner) (call : WriteCall) (index : Nat) (off : Int) (count : Nat)

def touched : StreamInner :=
  { inner with toStorageInner := inner.toStorageInner.touch index }

def readUncached (start count : Nat) : ReadSection :=
  let wanted := min (inner.pieceLength index - start) count
  if !inner.attached then .returns (.error (.other "download storage is not configured")) inner
  else if inner.stream then
    if inner.startupSaved.get index then .readsStartup (32 + start) wanted
    else .returns (.error .unavailable) inner
  else
    match planFileReads inner.files (inner.address index start) wanted with
    | .error error => .returns (.error error) inner
    | .ok parts => .readsFiles parts

def readPieceData : ReadSection :=
  if inner.closed then .returns (.error .closed) inner
  else if off < 0 ∨ inner.pieceLength index <= off then .returns (.ok []) inner
  else if inner.streamLost.get index then .returns (.error .unavailable) inner
  else
    match inner.cache.lookup index with
    | none => inner.readUncached index off.toNat count
    | some slot =>
      if inner.needsFill index { start := off.toNat, stop := off.toNat + count } then .fills
      else
        .returns (.ok (slotBytes slot off.toNat (min (slot.len - off.toNat) count))) (inner.touched index)

/-- The bytes that are copied, if the call answers, and the state after it. -/
def readAtInMemory : Option (Except StorageError (List UInt8)) × StreamInner :=
  if inner.closed ∨ off < 0 then (none, inner)
  else
    match inner.cache.lookup index with
    | none => (none, inner)
    | some slot =>
      if slot.len < off + count ∨ inner.streamLost.get index = true ∨
          inner.needsFill index { start := off.toNat, stop := off.toNat + count } = true then
        (none, inner)
      else (some (.ok (slotBytes slot off.toNat count)), inner)

inductive WriteSection where
  | returns (answer : Except StorageError Nat) (after : StreamInner)
  /-- Another call has the piece. -/
  | waits (after : StreamInner)
  | flushes (victim : Nat) (after : StreamInner)
  | writesThrough (after : StreamInner)
  /-- The search for room does not end. -/
  | spins (before : StreamInner)

def WriteSection.state : WriteSection -> StreamInner
  | .returns _ after | .waits after | .flushes _ after | .writesThrough after | .spins after => after

/-- Before the storage is attached, data is only kept in memory. -/
def writePrepared (inner : StorageInner) (call : WriteCall) (count : Nat) :
    Except StorageError Nat × StorageInner :=
  let expected := inner.pieceLength call.piece
  let write (made : StorageInner) : Except StorageError Nat × StorageInner :=
    (.ok count, (made.copyIn call.piece call.range call.data).noteDirty call.piece call.range)
  match inner.cache.lookup call.piece with
  | some _ => write inner
  | none =>
    if inner.maxCacheBytes < inner.cacheBytes + expected then
      (.error (.other "prepared data cache is full"), inner)
    else write (inner.makeSlot call.piece expected)

/-- What Direct Play notes of a range that arrived. -/
def noteStream : StreamInner :=
  let merged := ((inner.streamRanges.lookup call.piece).getD Ranges.empty).insert call.range
  { inner with
    streamRanges := inner.streamRanges.insert call.piece merged
    streamWhole := inner.streamWhole.insert call.piece
      (!inner.streamLost.get call.piece && decide (merged.IsWhole (inner.pieceLength call.piece))) }

def finishWrite (created : Bool) (call : WriteCall) : StreamInner :=
  { inner with toStorageInner := inner.toStorageInner.finishWrite created call }

def writeStream : WriteSection :=
  match inner.ensureStreamSlotWithin (inner.cacheOrder.length + 1) call.piece
      (inner.pieceLength call.piece) with
  | none => .spins inner
  | some (.error error, after) => .returns (.error error) after
  | some (.ok _, after) => .returns (.ok count) ((after.noteStream call).finishWrite false call)

def writeDownload : WriteSection :=
  if call.piece ∈ inner.evicting ∨ inner.cache.lookup call.piece = none /\ call.piece ∈ inner.flushing then
    .waits inner
  else
    match inner.toStorageInner.ensureCacheSlot call.piece (inner.pieceLength call.piece) with
    | none => .spins inner
    | some (.ready created, after) =>
      .returns (.ok count) ({ inner with toStorageInner := after }.finishWrite created call)
    | some (.flushFirst victim, after) =>
      .flushes victim
        { inner with toStorageInner := { after with evicting := insert victim after.evicting } }
    | some (.failed _, after) =>
      if call.piece ∈ after.flushing then .waits { inner with toStorageInner := after }
      else .writesThrough { inner with toStorageInner := after }

/-- `write_at` is this section and what follows it. -/
def writeLocked (data : List UInt8) : WriteSection :=
  let call : WriteCall :=
    { piece := index, range := { start := off.toNat, stop := off.toNat + data.length }
      data := fun position => data.getD (position - off.toNat) 0 }
  if inner.closed then .returns (.error .closed) inner
  else if data = [] then .returns (.ok 0) inner
  else if off < 0 ∨ inner.pieceLength index < off + data.length then
    .returns (.error (.other "invalid piece write bounds")) inner
  else if inner.stream && inner.completed.get index then .returns (.ok data.length) inner
  else if !inner.attached then
    .returns (writePrepared inner.toStorageInner call data.length).1
      { inner with toStorageInner := (writePrepared inner.toStorageInner call data.length).2 }
  else if inner.stream then inner.writeStream call data.length
  else inner.writeDownload call data.length

def writeStaysInMemory : Bool :=
  inner.closed || !inner.attached ||
    (inner.cache.lookup index).any (fun slot => slot.len == inner.pieceLength index) &&
      decide (index ∉ inner.evicting)

def writeAtInMemory (data : List UInt8) : Option WriteSection × StreamInner :=
  if inner.writeStaysInMemory index then
    (some (inner.writeLocked index off data), (inner.writeLocked index off data).state)
  else (none, inner)

variable {inner : StreamInner} {index : Nat}

/-- The call has returned in this section, so that it was not at the files. -/
def WriteSection.Returned (outcome : WriteSection) : Prop :=
  Exists fun answer => outcome = .returns answer outcome.state

theorem writeStream_returned
    {call : WriteCall} {count : Nat} {slot : Slot} (found : inner.cache.lookup call.piece = some slot)
    (whole : slot.len = inner.pieceLength call.piece) : (inner.writeStream call count).Returned := by
  rw [writeStream, ensureStreamSlotWithin, found]
  dsimp only
  rw [if_pos whole]
  exact ⟨_, rfl⟩

theorem writeDownload_returned {call : WriteCall} {count : Nat} {slot : Slot}
    (found : inner.cache.lookup call.piece = some slot) (whole : slot.len = inner.pieceLength call.piece)
    (free : call.piece ∉ inner.evicting) : (inner.writeDownload call count).Returned := by
  have slotReady : inner.toStorageInner.ensureCacheSlot call.piece (inner.pieceLength call.piece) =
      some (.ready false, inner.toStorageInner.touch call.piece) := by
    rw [StorageInner.ensureCacheSlot, found]
    exact if_pos whole
  rw [writeDownload, if_neg (by simp [free, found]), slotReady]
  exact ⟨_, rfl⟩

theorem writeLocked_returned (stays : inner.writeStaysInMemory index = true) (off : Int)
    (data : List UInt8) : (inner.writeLocked index off data).Returned := by
  unfold writeLocked
  split_ifs with notOpen _ _ _ prepared
  · exact ⟨_, rfl⟩
  · exact ⟨_, rfl⟩
  · exact ⟨_, rfl⟩
  · exact ⟨_, rfl⟩
  · exact ⟨_, rfl⟩
  all_goals
    simp only [writeStaysInMemory, notOpen, prepared, Bool.false_or, Bool.and_eq_true,
      Option.any_eq_true, beq_iff_eq, decide_eq_true_eq] at stays
    rcases stays with ⟨⟨slot, found, whole⟩, free⟩
  · exact writeStream_returned found whole
  · exact writeDownload_returned found whole free

end StreamInner

/-! ## The lengths of the slots -/

/-- Every slot is as long as its piece. -/
structure Sized (length : Nat -> Nat) (inner : StorageInner) : Prop where
  pieces : inner.pieceLength = length
  slots : ∀ index slot, (inner.view index).slot = some slot -> slot.len = length index

/-- A storage: slots are made with the length of their piece and keep it. -/
structure DocumentStorage where
  inner : StreamInner
  sized : Sized inner.pieceLength inner.toStorageInner

namespace Sized

variable {length : Nat -> Nat} {inner after : StorageInner} {stream later : StreamInner}
  {index rounds : Nat} {made : Except StorageError (Bool × List Nat)}

section
variable (sized : Sized length inner)
include sized

theorem of_shape (shape : SameShape inner after)
    (slots : ∀ index slot, (after.view index).slot = some slot -> slot.len = length index) :
    Sized length after := by
  refine ⟨?_, slots⟩
  rw [<- sized.pieces]
  funext index
  rw [pieceLength, pieceLength, shape.chunkLength, shape.totalLength]

theorem dropCache (index : Nat) : Sized length (inner.dropCache index) := by
  refine sized.of_shape (inner.sameShape_dropCache index) fun other slot found => ?_
  rw [view_dropCache] at found
  split at found
  · cases found
  · exact sized.slots other slot found

theorem makeSlot (index : Nat) : Sized length (inner.makeSlot index (length index)) := by
  refine sized.of_shape ⟨rfl, rfl, rfl⟩ fun other slot found => ?_
  rw [view_makeSlot] at found
  split at found
  next here =>
    cases found
    exact congrArg length here
  · exact sized.slots other slot found

theorem copyIn (range : ByteRange) (data : Nat -> UInt8) : Sized length (inner.copyIn index range data) := by
  have shape : SameShape inner (inner.copyIn index range data) := by
    unfold StorageInner.copyIn
    split <;> exact ⟨rfl, rfl, rfl⟩
  refine sized.of_shape shape fun other slot found => ?_
  rw [view_copyIn] at found
  split at found
  · rcases Option.map_eq_some_iff.mp found with ⟨old, there, rfl⟩
    exact sized.slots other old there
  · exact sized.slots other slot found

theorem finishWrite (created : Bool) (call : WriteCall) : Sized length (inner.finishWrite created call) := by
  refine sized.of_shape (inner.sameShape_finishWrite created call) fun other slot found => ?_
  rw [view_finishWrite] at found
  split at found
  · rcases Option.map_eq_some_iff.mp found with ⟨old, there, rfl⟩
    exact sized.slots other old (by cases created <;> exact there)
  · exact sized.slots other slot found

theorem ensureCacheSlot {outcome : CacheSlot}
    (ended : inner.ensureCacheSlot index (length index) = some (outcome, after)) : Sized length after := by
  rcases ensureCacheSlot_spec (sized.slots index) ended with ⟨_, _, shape, same⟩ | ⟨_, room⟩
  · exact sized.of_shape shape (fun other slot found => sized.slots other slot (same other ▸ found))
  refine sized.of_shape room.shape fun other slot found => ?_
  by_cases here : other = index
  · rw [here, room.own] at found
    split at found
    · cases found
      rw [here]
      rfl
    · rw [here]
      exact sized.slots index slot found
  · rcases room.others other here with same | ⟨gone, _⟩
    · exact sized.slots other slot (same ▸ found)
    rw [gone] at found
    cases found

end

theorem makeStreamRoom {refresh : List Nat} (sized : Sized length stream.toStorageInner)
    (ended : makeStreamRoom index (length index) rounds refresh stream = some (made, later)) :
    Sized length later.toStorageInner := by
  induction rounds generalizing stream refresh with
  | zero => cases ended
  | succ rounds ih =>
    rw [makeStreamRoom] at ended
    split at ended
    · cases ended
      exact sized.makeSlot index
    split at ended
    · cases ended
      exact sized
    next victim _ =>
      refine ih ?_ ended
      rw [evictStream_eq]
      exact ⟨(sized.dropCache victim).pieces, (sized.dropCache victim).slots⟩

theorem ensureStreamSlot (sized : Sized length stream.toStorageInner)
    (ended : stream.ensureStreamSlotWithin rounds index (length index) = some (made, later)) :
    Sized length later.toStorageInner := by
  unfold ensureStreamSlotWithin at ended
  split at ended
  · split at ended
    · cases ended
      exact ⟨sized.pieces, sized.slots⟩
    · exact makeStreamRoom (sized.dropCache index) ended
  · exact sized.makeStreamRoom ended

theorem writePrepared (sized : Sized length inner) (call : WriteCall) (count : Nat) :
    Sized length (writePrepared inner call count).2 := by
  have lengths : inner.pieceLength call.piece = length call.piece := congrFun sized.pieces _
  have wrote : ∀ made : StorageInner, Sized length made -> Sized length
      ((made.copyIn call.piece call.range call.data).noteDirty call.piece call.range) := by
    intro made sized
    have copied : Sized length (made.copyIn call.piece call.range call.data) := sized.copyIn _ _
    exact ⟨copied.pieces, copied.slots⟩
  unfold StreamInner.writePrepared
  dsimp only
  split
  · exact wrote inner sized
  split
  · exact sized
  rw [lengths]
  exact wrote _ (sized.makeSlot call.piece)

/-- Whatever a write does under the lock, the slots keep the lengths of their pieces. -/
theorem writeLocked (sized : Sized length stream.toStorageInner) (index : Nat) (off : Int)
    (data : List UInt8) : Sized length (stream.writeLocked index off data).state.toStorageInner := by
  have lengths : stream.pieceLength = length := sized.pieces
  unfold StreamInner.writeLocked
  dsimp only
  split_ifs
  · exact sized
  · exact sized
  · exact sized
  · exact sized
  · exact sized.writePrepared _ _
  · unfold writeStream
    rw [lengths]
    split
    · exact sized
    next ended => exact sized.ensureStreamSlot ended
    next ended => exact (sized.ensureStreamSlot ended).finishWrite false _
  · unfold writeDownload
    rw [lengths]
    split
    · exact sized
    split
    · exact sized
    next ended => exact (sized.ensureCacheSlot ended).finishWrite _ _
    next ended =>
      have kept := sized.ensureCacheSlot ended
      exact ⟨kept.pieces, kept.slots⟩
    next ended => split <;> exact sized.ensureCacheSlot ended

end Sized

namespace DocumentStorage

/-- A call of `write_at`. -/
structure WriteAt where
  index : Nat
  off : Int
  data : List UInt8

/-- The calls one after the other, each as far as it goes under the lock. -/
def afterWrites (storage : DocumentStorage) (calls : List WriteAt) : StreamInner :=
  calls.foldl (fun inner call => (inner.writeLocked call.index call.off call.data).state) storage.inner

/-- Any number of writes leaves every slot as long as its piece. -/
theorem slots_sized_afterWrites (storage : DocumentStorage) (calls : List WriteAt) :
    Sized storage.inner.pieceLength (storage.afterWrites calls).toStorageInner := by
  induction calls using List.reverseRecOn with
  | nil => exact storage.sized
  | append_singleton earlier call ih =>
    rw [afterWrites, List.foldl_append]
    exact ih.writeLocked call.index call.off call.data

/-- A slot that has the bytes has them for `read_at`, too. -/
theorem read_agrees (storage : DocumentStorage) {index count : Nat} {off : Int}
    {answer : Except StorageError (List UInt8)}
    (answered : (storage.inner.readAtInMemory index off count).1 = some answer) :
    Exists fun after => storage.inner.readPieceData index off count = .returns answer after := by
  unfold readAtInMemory at answered
  split at answered
  · cases answered
  rename_i usable
  push Not at usable
  split at answered
  · cases answered
  rename_i slot found
  split at answered
  · cases answered
  rename_i fits
  cases answered
  push Not at fits
  have len := storage.sized.slots index slot found
  by_cases past : storage.inner.pieceLength index <= off
  · -- Nothing is wanted from behind the end.
    have nothing : count = 0 := by omega
    refine ⟨storage.inner, ?_⟩
    rw [readPieceData, if_neg usable.1, if_pos (Or.inr past), nothing]
    rfl
  · have all : min (slot.len - off.toNat) count = count := by omega
    refine ⟨storage.inner.touched index, ?_⟩
    rw [readPieceData, if_neg usable.1, if_neg (by omega), if_neg fits.2.1, found]
    dsimp only
    rw [if_neg fits.2.2, all]

/-- The fast paths answer as `read_at` and `write_at` do in the same state.  A write that is
answered was not at the files, and a call that is not answered changes nothing. -/
theorem memory_paths_agree (storage : DocumentStorage) (index : Nat) (off : Int) (count : Nat)
    (data : List UInt8) :
    (forall answer, (storage.inner.readAtInMemory index off count).1 = some answer ->
      Exists fun after => storage.inner.readPieceData index off count = .returns answer after) ∧
    (forall outcome, (storage.inner.writeAtInMemory index off data).1 = some outcome ->
      outcome = storage.inner.writeLocked index off data ∧ outcome.Returned ∧
        (storage.inner.writeAtInMemory index off data).2 = outcome.state) ∧
    ((storage.inner.readAtInMemory index off count).1 = none ->
      (storage.inner.readAtInMemory index off count).2 = storage.inner) ∧
    ((storage.inner.writeAtInMemory index off data).1 = none ->
      (storage.inner.writeAtInMemory index off data).2 = storage.inner) := by
  refine ⟨fun answer => storage.read_agrees, ?_, ?_, ?_⟩
  · intro outcome answered
    unfold writeAtInMemory at answered ⊢
    split at answered
    next stays =>
      cases answered
      rw [if_pos stays]
      exact ⟨rfl, writeLocked_returned stays off data, rfl⟩
    · cases answered
  · intro unanswered
    unfold readAtInMemory
    split
    · rfl
    split
    · rfl
    · split <;> rfl
  · intro unanswered
    unfold writeAtInMemory at unanswered ⊢
    split at unanswered
    · cases unanswered
    next leaves => rw [if_neg leaves]

/-- One piece of four bytes in memory. -/
def loaded : DocumentStorage where
  inner :=
    { chunkLength := 4, totalLength := 4, attached := true
      cache := (∅ : FiniteMap Nat Slot).insert 0 (Slot.zeros 4) }
  sized := by
    refine ⟨rfl, fun index slot found => ?_⟩
    rw [StorageInner.view, FiniteMap.lookup_insert_eq] at found
    split at found
    next here =>
      cases found
      rw [← here]
      rfl
    · cases found

theorem memory_paths_agree_loaded : (loaded.inner.readAtInMemory 0 1 2).1 = some (.ok [0, 0]) ∧
      (Exists fun after => loaded.inner.readPieceData 0 1 2 = .returns (.ok [0, 0]) after) ∧
      Exists fun outcome => (loaded.inner.writeAtInMemory 0 1 [7]).1 = some outcome ∧
        outcome = loaded.inner.writeLocked 0 1 [7] ∧ outcome.Returned ∧
          (loaded.inner.writeAtInMemory 0 1 [7]).2 = outcome.state :=
  ⟨rfl, (memory_paths_agree loaded 0 1 2 []).1 _ rfl, _, rfl, (memory_paths_agree loaded 0 1 2 [7]).2.1 _ rfl⟩

end DocumentStorage
end TorrentPlayer.Storage
