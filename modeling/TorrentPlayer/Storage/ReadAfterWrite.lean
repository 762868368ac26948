import Mathlib.Data.List.Forall2
import TorrentPlayer.Storage.FileBytes

namespace TorrentPlayer.Storage

open Library StoredFile FileDescriptor List FileData

/-!
# Reading after writing

The three loops over the files go through the same parts of a range.  So what is
written to a range is read back from it, whatever files it crosses, and nothing
else changes.
-/

namespace StoredFile

/-- A file after the write of a range. -/
def overwritten (start : Nat) (data : List UInt8) (file : StoredFile) : StoredFile :=
  if file.Overlaps start (start + data.length) then
    { file with
      data := file.data.writeAllAt (max start file.offset - file.offset)
        (slice data (max start file.offset - start)
          (min (start + data.length) (file.offset + file.length) - start)) }
  else file

@[simp] theorem toFileDescriptor_overwritten (start : Nat) (data : List UInt8) (file : StoredFile) :
    (file.overwritten start data).toFileDescriptor = file.toFileDescriptor := by
  rw [overwritten]
  split <;> rfl

end StoredFile

variable {first last : Nat}
variable (start : Nat) (data : List UInt8) {values : List UInt8}

theorem length_slice (inside : last <= values.length) : (slice values first last).length = last - first := by
  rw [slice, length_take, length_drop]
  omega

theorem getD_slice {step : Nat} (before : step < last - first) :
    (slice values first last).getD step 0 = values.getD (first + step) 0 := by
  rw [getD_eq_getElem?_getD, getD_eq_getElem?_getD, slice, getElem?_take_of_lt before, getElem?_drop]

/-- A write changes the bytes of its range, and no others. -/
theorem StoredFile.get_overwritten (file : StoredFile)
    (place : Nat) : (file.overwritten start data).data.get place =
    if place < file.length /\ start <= file.offset + place /\
        file.offset + place < start + data.length then data.getD (file.offset + place - start) 0
    else file.data.get place := by
  rw [overwritten]
  split
  case isFalse apart =>
    rw [StoredFile.Overlaps] at apart
    rw [if_neg (by omega)]
  · rw [get_writeAllAt, length_slice (by omega)]
    by_cases within : place < file.length /\ start <= file.offset + place /\
        file.offset + place < start + data.length
    · rw [if_pos within, if_pos (by omega), getD_slice (by omega)]
      congr 1
      omega
    · rw [if_neg within, if_neg (by omega)]

theorem modify_length_append {X : Type} (change : X -> X) (before rest : List X) (value : X) :
    (before ++ value :: rest).modify before.length change = before ++ change value :: rest := by
  induction before with
  | nil => rfl
  | cons head tail ih => rw [cons_append, length_cons, modify_succ_cons, ih, cons_append]

theorem foldl_writeSpan (before files : List StoredFile) :
    ((spansFrom start (start + data.length) before.length files).map Prod.snd).foldl
      (writeSpan data) (before ++ files) = before ++ files.map (overwritten start data) := by
  induction files generalizing before with
  | nil => rfl
  | cons file rest ih =>
    have next := ih (before ++ [file.overwritten start data])
    rw [length_append, length_singleton, append_assoc, singleton_append,
      append_assoc, singleton_append] at next
    rw [spansFrom, map_cons, <- next]
    split
    next overlaps =>
      rw [map_cons, foldl_cons, writeSpan]
      dsimp only [clip]
      rw [modify_length_append, overwritten, if_pos overlaps]
    next apart => rw [overwritten, if_neg apart]

theorem layout_map_overwritten (files : List StoredFile) :
    layout (files.map (overwritten start data)) = layout files := by
  rw [layout, map_map]
  apply map_congr_left
  intro file _
  exact toFileDescriptor_overwritten start data file

variable {start : Nat} {data : List UInt8} {files : List StoredFile}

theorem writeToFiles_eq (contiguous : Contiguous 0 (layout files))
    (inside : start + data.length <= totalLength (layout files))
    (opened : OpenFor files start (start + data.length)) : writeToFiles files start data =
    (.ok data.length, (spansOf files start (start + data.length)).foldl (writeSpan data) files) := by
  have whole := places_spansOf contiguous inside
  rw [spansOf] at whole
  rw [writeToFiles, visitFiles_eq contiguous, visitLoop_eq_visitSpans opened,
    visitSpans_of_total (fun _ _ _ => rfl)]
  dsimp only
  rw [whole, length_range, Nat.zero_add, if_pos rfl, spansOf]

theorem writeToFiles_ok {files after : List StoredFile} {count : Nat}
    (contiguous : Contiguous 0 (layout files))
    (written : writeToFiles files start data = (.ok count, after)) :
    after = files.map (overwritten start data) := by
  rw [writeToFiles, visitFiles_eq contiguous] at written
  have folded := foldl_writeSpan start data [] files
  split at written
  · cases written
  rename_i progress known
  rw [visitLoop_eq_visitSpans (opened_of_visitLoop known), visitSpans_of_total (fun _ _ _ => rfl)] at known
  split at written
  case isFalse => cases written
  · cases written
    rw [<- (Prod.mk.inj known).2]
    exact folded

/-! ## Reading -/

/-- The byte at a position of the torrent, in files that lie one after the other. -/
def byteAt : List StoredFile -> Nat -> UInt8
  | [], _ => 0
  | file :: rest, position =>
    if position < file.offset + file.length then file.data.get (position - file.offset)
    else byteAt rest position

/-- Copy the part of one file into a buffer. -/
def fillSpan (files : List StoredFile) (buffer : List UInt8) (span : FileRead) : List UInt8 :=
  match files[span.file]? with
  | none => buffer
  | some file =>
    buffer.take span.first ++ (List.range (span.last - span.first)).map
        (fun step => file.data.get (span.position + step)) ++ buffer.drop span.last

/-- The files that have bytes of a range are as long as they should be. -/
def FullFor (files : List StoredFile) (start stop : Nat) : Prop :=
  ∀ file ∈ files, file.Overlaps start stop -> file.length <= file.data.len

variable {stop : Nat}

theorem FullFor.narrow (full : FullFor files start stop)
    (above : start <= first) (below : last <= stop) : FullFor files first last :=
  fun file within overlaps => full file within (overlaps.widen above below)

variable {file : StoredFile}
variable {rest files : List StoredFile} {position : Nat}

theorem readSpan_eq {span : FileRead} (there : files[span.file]? = some file) (lies : span.LiesIn start file)
    (full : file.length <= file.data.len) (buffer : List UInt8) :
    readSpan file span buffer = (none, fillSpan files buffer span) := by
  have ends := lies.ends
  have inside : span.position + (span.last - span.first) <= file.data.len := by omega
  have read : file.data.readExactAt span.position (span.last - span.first) =
      some ((List.range (span.last - span.first)).map
        (fun step => file.data.byte (span.position + step))) := by
    rw [FileData.readExactAt, if_pos inside]
  have same := (readExactAt_eq read).2
  rw [readSpan, read, same, fillSpan, there]

theorem visitSpans_readSpan {spans : List (StoredFile × FileRead)}
    (good : ∀ file span, (file, span) ∈ spans ->
      files[span.file]? = some file /\ span.LiesIn start file /\ file.length <= file.data.len)
    (progress : Progress (List UInt8)) : visitSpans readSpan spans progress = (none,
        { done := progress.done + (places (spans.map Prod.snd)).length
          state := (spans.map Prod.snd).foldl (fillSpan files) progress.state }) := by
  induction spans generalizing progress with
  | nil => rfl
  | cons head rest ih =>
    rcases head with ⟨file, span⟩
    rcases good file span mem_cons_self with ⟨there, lies, full⟩
    rw [visitSpans, readSpan_eq there lies full]
    dsimp only
    rw [ih (fun other part within => good other part (mem_cons_of_mem _ within)),
      length_places, length_places, map_cons, map_cons, sum_cons,
      foldl_cons]
    rw [Nat.add_assoc]

theorem readFromFiles_eq (contiguous : Contiguous 0 (layout files)) {start : Nat} {buffer : List UInt8}
    (inside : start + buffer.length <= totalLength (layout files))
    (opened : OpenFor files start (start + buffer.length))
    (full : FullFor files start (start + buffer.length)) : readFromFiles files start buffer =
    .ok ((spansOf files start (start + buffer.length)).foldl (fillSpan files) buffer) := by
  have whole := places_spansOf contiguous inside
  rw [spansOf] at whole
  have good : ∀ file span, (file, span) ∈ spansFrom start (start + buffer.length) 0 files ->
      files[span.file]? = some file /\ span.LiesIn start file /\ file.length <= file.data.len := by
    intro file span within
    rcases liesIn_of_mem_spansFrom within with ⟨_, there, lies, overlaps⟩
    exact ⟨there, lies, full file (mem_of_getElem? there) overlaps⟩
  rw [readFromFiles, visitFiles_eq contiguous, visitLoop_eq_visitSpans opened, visitSpans_readSpan good]
  dsimp only
  rw [whole, length_range, Nat.zero_add, if_pos rfl, spansOf]

theorem byteAt_of_before (before : position < file.offset + file.length) :
    byteAt (file :: rest) position = file.data.get (position - file.offset) := by
  rw [byteAt, if_pos before]

theorem byteAt_of_behind (behind : file.offset + file.length <= position) :
    byteAt (file :: rest) position = byteAt rest position := by
  rw [byteAt, if_neg (by omega)]

variable {buffer : List UInt8}

theorem length_splice {chunk : List UInt8} (size : chunk.length = last - first)
    (ordered : first <= last) (inside : last <= buffer.length) :
    (buffer.take first ++ chunk ++ buffer.drop last).length = buffer.length := by
  rw [length_append, length_append, length_take, length_drop]
  omega

theorem getElem?_splice {chunk : List UInt8} (size : chunk.length = last - first)
    (ordered : first <= last) (inside : last <= buffer.length) (place : Nat) :
    (buffer.take first ++ chunk ++ buffer.drop last)[place]? =
    if first <= place /\ place < last then chunk[place - first]? else buffer[place]? := by
  have head : (buffer.take first).length = first := by
    rw [length_take]
    omega
  split
  · rw [getElem?_append_left (by rw [length_append, head, size]; omega),
      getElem?_append_right (by omega), head]
  · by_cases early : place < first
    · rw [append_assoc, getElem?_append_left (by omega), getElem?_take_of_lt early]
    rw [getElem?_append_right (by rw [length_append, head, size]; omega),
      getElem?_drop, length_append, head, size]
    congr 1
    omega

theorem getElem?_of_readSpan {index : Nat} {filled : List UInt8}
    (overlaps : file.Overlaps start stop) (fits : stop <= start + buffer.length)
    (read : readSpan file (file.clip start stop index) buffer = (none, filled)) :
    filled.length = buffer.length /\ ∀ place : Nat, filled[place]? =
      if file.offset <= start + place /\ start + place < stop /\
          start + place < file.offset + file.length then
        some (file.data.get (start + place - file.offset)) else buffer[place]? := by
  rw [StoredFile.Overlaps] at overlaps
  rw [readSpan] at read
  dsimp only [clip] at read
  have lowerStart := Nat.le_max_left start file.offset
  have lowerOffset := Nat.le_max_right start file.offset
  have upper : ∀ position, max start file.offset <= position <->
      start <= position /\ file.offset <= position := fun _ => Nat.max_le
  have below : ∀ position, position < min stop (file.offset + file.length) <->
      position < stop /\ position < file.offset + file.length := fun _ => Nat.lt_min
  have stopped := Nat.min_le_left stop (file.offset + file.length)
  generalize max start file.offset = first at *
  generalize min stop (file.offset + file.length) = last at *
  split at read
  · cases read
  rename_i chunk found
  have bytes := (readExactAt_eq found).2
  have size : chunk.length = last - start - (first - start) := by rw [bytes, length_map, length_range]
  have ordered : first - start <= last - start := by omega
  have inside : last - start <= buffer.length := by omega
  rw [<- (Prod.mk.inj read).2]
  refine ⟨length_splice size ordered inside, ?_⟩
  intro place
  rw [getElem?_splice size ordered inside]
  have lower := upper (start + place)
  have higher := below (start + place)
  by_cases within : file.offset <= start + place /\ start + place < stop /\
      start + place < file.offset + file.length
  · rw [if_pos within, if_pos (by omega), bytes, getElem?_map, getElem?_range (by omega), Option.map_some]
    congr 2
    omega
  · rw [if_neg within, if_neg (by omega)]

theorem done_of_visitSpans {S : Type} {act : StoredFile -> FileRead -> S -> Option StorageError × S}
    {spans : List (StoredFile × FileRead)} {before after : Progress S}
    (known : visitSpans act spans before = (none, after)) :
    after.done = before.done + (places (spans.map Prod.snd)).length := by
  induction spans generalizing before with
  | nil =>
    cases known
    rfl
  | cons head rest ih =>
    rw [visitSpans] at known
    split at known
    · cases known
    rw [ih known, length_places, length_places, map_cons, map_cons, sum_cons]
    rw [Nat.add_assoc]

theorem getElem?_of_visitSpans_readSpan {offset index : Nat} (contiguous : Contiguous offset (layout files))
    {before after : Progress (List UInt8)} (fits : stop <= start + before.state.length)
    (known : visitSpans readSpan (spansFrom start stop index files) before = (none, after)) :
    after.state.length = before.state.length /\ ∀ place : Nat, after.state[place]? =
    if offset <= start + place /\ start + place < stop /\ start + place < offset
    + totalLength (layout files) then some (byteAt files (start + place)) else before.state[place]? := by
  induction files generalizing offset index before with
  | nil =>
    cases known
    have none : totalLength (layout []) = 0 := rfl
    refine ⟨rfl, ?_⟩
    intro place
    rw [if_neg (by omega)]
  | cons file rest ih =>
    have total := totalLength_layout_cons file rest
    have begins : file.offset = offset := contiguous.1
    rw [total]
    rw [spansFrom] at known
    split at known
    case isFalse apart =>
      rw [StoredFile.Overlaps] at apart
      rcases ih contiguous.2 fits known with ⟨length, filled⟩
      refine ⟨length, ?_⟩
      intro place
      rw [filled place]
      by_cases within : offset <= start + place /\ start + place < stop /\
          start + place < offset + (file.length + totalLength (layout rest))
      · rw [if_pos within, if_pos (by omega), byteAt_of_behind (by omega)]
      · rw [if_neg within, if_neg (by omega)]
    next overlaps =>
      rw [visitSpans] at known
      split at known
      · cases known
      rename_i state read
      rcases getElem?_of_readSpan overlaps fits read with ⟨kept, own⟩
      rcases ih contiguous.2 (by dsimp only; rw [kept]; exact fits) known with
        ⟨length, filled⟩
      refine ⟨length.trans kept, ?_⟩
      intro place
      have mine := own place
      rw [filled place]
      rw [mine]
      by_cases later : offset + file.length <= start + place /\ start + place < stop /\
          start + place < offset + file.length + totalLength (layout rest)
      · rw [if_pos later, if_pos (by omega), byteAt_of_behind (by omega)]
      · rw [if_neg later]
        by_cases within : offset <= start + place /\ start + place < stop /\
            start + place < offset + (file.length + totalLength (layout rest))
        · rw [if_pos within, if_pos (by omega), byteAt_of_before (by omega), begins]
        · rw [if_neg within, if_neg (by omega)]

/-- A read that returns without an error has every byte of its range. -/
theorem readFromFiles_ok (contiguous : Contiguous 0 (layout files))
    {result : List UInt8} (read : readFromFiles files start buffer = .ok result) :
    result = (List.range buffer.length).map (fun step => byteAt files (start + step)) := by
  rw [readFromFiles, visitFiles_eq contiguous] at read
  split at read
  · cases read
  rename_i progress known
  rw [visitLoop_eq_visitSpans (opened_of_visitLoop known)] at known
  have fits : start + buffer.length <= start +
      (Progress.mk 0 buffer : Progress (List UInt8)).state.length := Nat.le_refl _
  rcases getElem?_of_visitSpans_readSpan contiguous fits known with ⟨length, filled⟩
  have done := done_of_visitSpans known
  rw [places_spansFrom contiguous, length_range'] at done
  dsimp only at done length filled
  split at read
  case isFalse => cases read
  · cases read
    apply ext_getElem?
    intro place
    rw [filled place, getElem?_map]
    by_cases within : place < buffer.length
    · rw [if_pos (by omega), getElem?_range within, Option.map_some]
    rw [if_neg (by omega), getElem?_eq_none (by omega),
      getElem?_eq_none (by rw [length_range]; omega), Option.map_none]

/-! ## Writes one after the other -/

/-- Some writes, each at its position, until one fails. -/
def writeAll : List StoredFile -> List (Nat × List UInt8) -> Except StorageError (List StoredFile)
  | files, [] => .ok files
  | files, (start, data) :: rest =>
    match writeToFiles files start data with
    | (.error failure, _) => .error failure
    | (.ok _, after) => writeAll after rest

/-- The value that some writes leave at a position, if one of them has it. -/
def lastWritten : List (Nat × List UInt8) -> Nat -> Option UInt8
  | [], _ => none
  | (start, data) :: rest, position =>
    (lastWritten rest position).or (if start <= position /\ position < start + data.length then
        some (data.getD (position - start) 0)
      else none)

structure StoredFile.HasWrites (writes : List (Nat × List UInt8)) (before after : StoredFile) :
    Prop where
  descriptor : after.toFileDescriptor = before.toFileDescriptor
  bytes : ∀ place : Nat, after.data.get place =
    if place < before.length then
      (lastWritten writes (before.offset + place)).getD (before.data.get place)
    else before.data.get place
  len : before.data.len <= after.data.len

theorem StoredFile.len_le_overwritten (start : Nat) (data : List UInt8) (file : StoredFile) :
    file.data.len <= (file.overwritten start data).data.len := by
  rw [overwritten]
  split
  · exact len_le_writeAllAt _ _ _
  · exact Nat.le_refl _

variable {writes : List (Nat × List UInt8)}

theorem StoredFile.HasWrites.cons {before after : StoredFile}
    (later : StoredFile.HasWrites writes (before.overwritten start data) after) :
    StoredFile.HasWrites ((start, data) :: writes) before after := by
  have descriptor := before.toFileDescriptor_overwritten start data
  have length : (before.overwritten start data).length = before.length :=
    congrArg FileDescriptor.length descriptor
  have offset : (before.overwritten start data).offset = before.offset :=
    congrArg offset descriptor
  refine ⟨later.descriptor.trans descriptor, ?_, ?_⟩
  · intro place
    rw [later.bytes place, get_overwritten, length, offset, lastWritten]
    by_cases inside : place < before.length
    · rw [if_pos inside, if_pos inside]
      cases lastWritten writes (before.offset + place) with
      | some => rfl
      | none =>
        by_cases within : start <= before.offset + place /\ before.offset + place < start + data.length
        · rw [if_pos within, if_pos ⟨inside, within⟩]
          rfl
        · rw [if_neg within, if_neg (fun all => within all.2)]
          rfl
    · rw [if_neg inside, if_neg inside, if_neg (fun all => inside all.1)]
  · exact Nat.le_trans (before.len_le_overwritten start data) later.len

section
variable {files after : List StoredFile}
variable {writes : List (Nat × List UInt8)}

theorem hasWrites_of_writeAll
    (contiguous : Contiguous 0 (layout files)) (written : writeAll files writes = .ok after) :
    List.Forall₂ (StoredFile.HasWrites writes) files after := by
  induction writes generalizing files with
  | nil =>
    cases written
    refine forall₂_same.mpr ?_
    intro file _
    exact ⟨rfl, fun place => by rw [lastWritten, Option.getD_none, ite_self], Nat.le_refl _⟩
  | cons write rest ih =>
    rcases write with ⟨start, data⟩
    rw [writeAll] at written
    split at written
    · cases written
    rename_i middle known
    have changed := writeToFiles_ok contiguous known
    rw [changed] at written
    have later := ih (by rw [layout_map_overwritten]; exact contiguous) written
    rw [forall₂_map_left_iff] at later
    exact later.imp fun _ _ => StoredFile.HasWrites.cons

theorem StoredFile.HasWrites.overlaps_iff {before : StoredFile}
    (written : StoredFile.HasWrites writes before file) (start stop : Nat) :
    file.Overlaps start stop <-> before.Overlaps start stop := by
  rw [StoredFile.Overlaps, StoredFile.Overlaps, written.descriptor]

variable (changed : List.Forall₂ (StoredFile.HasWrites writes) files after)
include changed

theorem layout_eq_of_hasWrites : layout after = layout files := by
  induction changed with
  | nil => rfl
  | cons head _ ih =>
    rw [layout, map_cons, head.descriptor]
    exact congrArg _ ih

theorem byteAt_of_hasWrites {offset : Nat} (contiguous : Contiguous offset (layout files))
    {position : Nat} (above : offset <= position) (inside : position < offset + totalLength (layout files)) :
    byteAt after position = (lastWritten writes position).getD (byteAt files position) := by
  induction changed generalizing offset with
  | nil =>
    have none : totalLength (layout []) = 0 := rfl
    omega
  | @cons before file files after head _ ih =>
    have total := totalLength_layout_cons before files
    have begins : before.offset = offset := contiguous.1
    have length : file.length = before.length := congrArg FileDescriptor.length head.descriptor
    have place : file.offset = before.offset := congrArg FileDescriptor.offset head.descriptor
    by_cases early : position < before.offset + before.length
    · have back : before.offset + (position - before.offset) = position := by omega
      rw [byteAt_of_before early, byteAt_of_before (by omega), place, head.bytes, if_pos (by omega), back]
    · rw [byteAt_of_behind (by omega), byteAt_of_behind (by omega)]
      exact ih contiguous.2 (by omega) (by omega)

/-- Every file of the torrent is open and as long as it should be. -/
def Attached (files : List StoredFile) : Prop :=
  ∀ file ∈ files, file.opened = true /\ file.length <= file.data.len

theorem before_of_hasWrites (within : file ∈ after) : Exists fun before =>
    before ∈ files /\ StoredFile.HasWrites writes before file := by
  induction changed with
  | nil => cases within
  | cons head _ ih =>
    rcases mem_cons.mp within with rfl | behind
    · exact ⟨_, mem_cons_self, head⟩
    · rcases ih behind with ⟨before, there, written⟩
      exact ⟨before, mem_cons_of_mem _ there, written⟩

theorem Attached.of_hasWrites (attached : Attached files) : Attached after := by
  intro file within
  rcases before_of_hasWrites changed within with ⟨before, there, written⟩
  rcases attached before there with ⟨opened, full⟩
  have sameOpen := congrArg FileDescriptor.opened written.descriptor
  have sameLength := congrArg FileDescriptor.length written.descriptor
  have grown := written.len
  exact ⟨sameOpen.trans opened, by omega⟩

theorem OpenFor.of_hasWrites (opened : OpenFor files start stop) : OpenFor after start stop := by
  intro file within overlaps
  rcases before_of_hasWrites changed within with ⟨before, there, written⟩
  rw [written.descriptor]
  exact opened before there ((written.overlaps_iff start stop).mp overlaps)

theorem FullFor.of_hasWrites (full : FullFor files start stop) : FullFor after start stop := by
  intro file within overlaps
  rcases before_of_hasWrites changed within with ⟨before, there, written⟩
  rw [written.descriptor]
  exact Nat.le_trans (full before there ((written.overlaps_iff start stop).mp overlaps)) written.len

end

section
variable {files : List StoredFile}

theorem writeAll_of_openFor (contiguous : Contiguous 0 (layout files))
    (opened : OpenFor files start stop) (inside : stop <= totalLength (layout files))
    (within : ∀ write ∈ writes, start <= write.1 /\ write.1 + write.2.length <= stop) :
    Exists fun after => writeAll files writes = .ok after := by
  induction writes generalizing files with
  | nil => exact ⟨files, rfl⟩
  | cons write rest ih =>
    rcases write with ⟨place, data⟩
    have bounds : start <= place /\ place + data.length <= stop :=
      within (place, data) mem_cons_self
    have written := writeToFiles_eq contiguous (by omega) (opened.narrow bounds.1 bounds.2)
    have single : writeAll files [(place, data)] =
        .ok ((spansOf files place (place + data.length)).foldl (writeSpan data) files) := by
      simp only [writeAll, written]
    have changed := hasWrites_of_writeAll contiguous single
    have same := layout_eq_of_hasWrites changed
    rw [writeAll, written]
    exact ih (by rw [same]; exact contiguous) (opened.of_hasWrites changed) (by rw [same]; exact inside)
      (fun other member => within other (mem_cons_of_mem _ member))

theorem writeAll_of_attached (contiguous : Contiguous 0 (layout files)) (attached : Attached files)
    (inside : ∀ write ∈ writes, write.1 + write.2.length <= totalLength (layout files)) :
    Exists fun after => writeAll files writes = .ok after :=
  writeAll_of_openFor contiguous (fun file within _ => (attached file within).1) (Nat.le_refl _)
    (fun write within => ⟨Nat.zero_le _, inside write within⟩)

structure TakenApart (files : List StoredFile) (start count : Nat) : Prop where
  /-- The slice has every file with bytes of the range. -/
  slice : ∀ (index : Nat) (file : StoredFile), files[index]? = some file ->
    file.Overlaps start (start + count) ->
    (overlappingFileRange (layout files) start (start + count)).1 <= index /\
      index < (overlappingFileRange (layout files) start (start + count)).2
  /-- The parts have every byte of the range once, and in order. -/
  once : places (spansOf files start (start + count)) = List.range count
  /-- Each part stands at its place in its file. -/
  inFile : ∀ span ∈ spansOf files start (start + count),
    Exists fun file => files[span.file]? = some file /\ span.LiesIn start file
  /-- The three loops go through these parts. -/
  planned : OpenFor files start (start + count) ->
    planReads files start count = .ok (spansOf files start (start + count))
  written : OpenFor files start (start + count) -> ∀ data : List UInt8, data.length = count ->
    writeToFiles files start data =
      (.ok count, (spansOf files start (start + count)).foldl (writeSpan data) files)
  read : OpenFor files start (start + count) -> FullFor files start (start + count) ->
    ∀ buffer : List UInt8, buffer.length = count -> readFromFiles files start buffer =
        .ok ((spansOf files start (start + count)).foldl (fillSpan files) buffer)

/-- What is read from a range after some writes, if none of them failed. -/
structure ReadsBack (files : List StoredFile) (writes : List (Nat × List UInt8))
    (start count : Nat) (after : List StoredFile) : Prop where
  /-- A read returns the last value written to each byte. -/
  last : ∀ buffer result : List UInt8, buffer.length = count ->
    readFromFiles after start buffer = .ok result ->
    result = (List.range count).map (fun step =>
      (lastWritten writes (start + step)).getD (byteAt files (start + step)))
  /-- In every file the bytes that were not written are as they were. -/
  kept : List.Forall₂ (StoredFile.HasWrites writes) files after

theorem takenApart (contiguous : Contiguous 0 (layout files))
    {count : Nat} (inside : start + count <= totalLength (layout files)) :
    TakenApart files start count where
  slice index file there overlaps := by
    refine Classical.not_not.mp fun outside => ?_
    exact not_overlaps_of_outside contiguous there rfl (by omega) overlaps
  once := places_spansOf contiguous inside
  inFile span within := by
    rcases mem_map.mp within with ⟨⟨file, part⟩, member, same⟩
    rcases liesIn_of_mem_spansFrom member with ⟨_, there, lies, _⟩
    rw [<- same]
    exact ⟨file, there, lies⟩
  planned opened := planReads_eq contiguous inside opened
  written opened data size := by
    rw [<- size] at inside opened ⊢
    exact writeToFiles_eq contiguous inside opened
  read opened full buffer size := by
    rw [<- size] at inside opened full ⊢
    exact readFromFiles_eq contiguous inside opened full

end

theorem readsBack {files after : List StoredFile}
    (contiguous : Contiguous 0 (layout files)) (written : writeAll files writes = .ok after) {count : Nat}
    (inside : start + count <= totalLength (layout files)) : ReadsBack files writes start count after := by
  have changed := hasWrites_of_writeAll contiguous written
  refine ⟨?_, changed⟩
  intro buffer result size read
  have bytes := readFromFiles_ok (by rw [layout_eq_of_hasWrites changed]; exact contiguous) read
  rw [bytes, size]
  apply map_congr_left
  intro step within
  have before := mem_range.mp within
  exact byteAt_of_hasWrites changed contiguous (Nat.zero_le _) (by omega)

/-- Every range inside the files is taken apart without a gap or an overlap.  A
read after any writes returns the last value of every byte, and it does return if
the files are open and have their length. -/
theorem torrent_bytes_in_files {files : List StoredFile}
    (contiguous : Contiguous 0 (layout files)) {start count : Nat}
    (inside : start + count <= totalLength (layout files)) : TakenApart files start count ∧
      (forall (writes : List (Nat × List UInt8)) (after : List StoredFile),
        writeAll files writes = .ok after -> ReadsBack files writes start count after) ∧
      (Attached files -> forall writes : List (Nat × List UInt8), (forall write, write ∈ writes ->
          write.1 + write.2.length <= totalLength (layout files)) ->
        Exists fun after : List StoredFile => writeAll files writes = .ok after ∧
          forall buffer : List UInt8, buffer.length = count ->
            Exists fun result : List UInt8 => readFromFiles after start buffer = .ok result) := by
  refine ⟨takenApart contiguous inside, fun writes after written =>
    readsBack contiguous written inside, ?_⟩
  intro attached writes within
  rcases writeAll_of_attached contiguous attached within with ⟨after, written⟩
  have changed := hasWrites_of_writeAll contiguous written
  have same := layout_eq_of_hasWrites changed
  have still := attached.of_hasWrites changed
  refine ⟨after, written, ?_⟩
  intro buffer size
  refine ⟨_, readFromFiles_eq (by rw [same]; exact contiguous) (by rw [same, size]; exact inside)
    (fun file within _ => (still file within).1) (fun file within _ => (still file within).2)⟩

/-- Two files of two and three bytes with an empty one between them. -/
def threeFiles : List StoredFile :=
  [{ offset := 0, length := 2, path := "a", opened := true,
     data := { len := 2, byte := fun _ => 0 } },
   { offset := 2, length := 0, path := "b", opened := true,
     data := { len := 0, byte := fun _ => 0 } },
   { offset := 2, length := 3, path := "c", opened := true,
     data := { len := 3, byte := fun _ => 0 } }]

theorem torrent_bytes_in_files_threeFiles :
    Contiguous 0 (layout threeFiles) ∧ 1 + 3 <= totalLength (layout threeFiles) ∧
      TakenApart threeFiles 1 3 := by
  have contiguous : Contiguous 0 (layout threeFiles) := ⟨rfl, rfl, rfl, trivial⟩
  have inside : 1 + 3 <= totalLength (layout threeFiles) := by decide
  exact ⟨contiguous, inside, (torrent_bytes_in_files contiguous inside).1⟩

end TorrentPlayer.Storage
