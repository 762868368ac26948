import TorrentPlayer.Library.PartitionPoint
import TorrentPlayer.Storage.Files

namespace TorrentPlayer.Storage

open Library List

/-!
# Bytes of a torrent in its files

Three loops of the storage take a range of the torrent apart: one writes to the
files, one reads from them, and one only lists the parts for a later read or
write without the lock.  Each finds the first and the last file by halving and
clips the range at the ends of every file between them.
-/

/-- The bytes of an open file.  Behind its end there is nothing. -/
structure FileData where
  len : Nat
  byte : Nat -> UInt8

variable {count offset index start stop : Nat}

namespace FileData

def get (data : FileData) (position : Nat) : UInt8 :=
  if position < data.len then data.byte position else 0

/-- A write behind the end leaves zeros in between. -/
def writeAllAt (data : FileData) (position : Nat) (chunk : List UInt8) : FileData :=
  if chunk.isEmpty then data
  else
    { len := max data.len (position + chunk.length)
      byte := fun place =>
        if position <= place /\ place < position + chunk.length then chunk.getD (place - position) 0
        else data.get place }

/-- All bytes asked for, or nothing if the file ends before. -/
def readExactAt (data : FileData) (position count : Nat) : Option (List UInt8) :=
  if position + count <= data.len then
    some ((List.range count).map (fun step => data.byte (position + step)))
  else none

variable (data : FileData) (position : Nat) (chunk : List UInt8)

theorem get_writeAllAt (place : Nat) : (data.writeAllAt position chunk).get place = if position <= place /\
    place < position + chunk.length then chunk.getD (place - position) 0 else data.get place := by
  rw [writeAllAt]
  split
  next empty =>
    rw [isEmpty_iff.mp empty, if_neg]
    rw [length_nil]
    omega
  · rw [get]
    dsimp only
    split
    · rfl
    next behind => rw [if_neg (by omega), get, if_neg (by omega)]

theorem len_le_writeAllAt : data.len <= (data.writeAllAt position chunk).len := by
  rw [writeAllAt]
  split
  · exact Nat.le_refl _
  · exact Nat.le_max_left _ _

theorem readExactAt_eq {data : FileData} {position : Nat} {chunk : List UInt8}
    (known : data.readExactAt position count = some chunk) : position + count <= data.len /\
    chunk = (List.range count).map (fun step => data.get (position + step)) := by
  rcases Option.ite_none_right_eq_some.mp known with ⟨inside, known⟩
  refine ⟨inside, ?_⟩
  cases known
  apply map_congr_left
  intro step within
  have before := mem_range.mp within
  rw [get, if_pos (by omega)]

end FileData

structure StoredFile extends FileDescriptor where
  data : FileData

/-- One operation on one file: the file, where in it, and which part of the
buffer. -/
structure FileRead where
  file : Nat
  position : Nat
  first : Nat
  last : Nat

/-- The indices of the files that may hold bytes of a range, found by halving. -/
def overlappingFileRange (files : List FileDescriptor) (start stop : Nat) : Nat × Nat :=
  let first := partitionPoint (fun file => decide (file.offset + file.length <= start)) files
  (first, first + partitionPoint (fun file => decide (file.offset < stop)) (files.drop first))

variable (files : List StoredFile)

def layout : List FileDescriptor :=
  files.map StoredFile.toFileDescriptor

namespace StoredFile

/-- The part of a range that a file has. -/
def clip (start stop index : Nat) (file : StoredFile) : FileRead where
  file := index
  position := max start file.offset - file.offset
  first := max start file.offset - start
  last := min stop (file.offset + file.length) - start

/-- The file has bytes of the range. -/
def Overlaps (start stop : Nat) (file : StoredFile) : Prop :=
  max start file.offset < min stop (file.offset + file.length)

instance (start stop : Nat) (file : StoredFile) : Decidable (file.Overlaps start stop) :=
  inferInstanceAs (Decidable (_ < _))

end StoredFile

/-- What a loop has done, with the bytes it counted. -/
structure Progress (S : Type) where
  done : Nat
  state : S

/-- The loop over the files of a range.  It keeps what was done when it fails. -/
def visitLoop {S : Type} (start stop : Nat) (act : StoredFile -> FileRead -> S -> Option StorageError × S) :
    Nat -> List StoredFile -> Progress S -> Option StorageError × Progress S
  | _, [], progress => (none, progress)
  | index, file :: rest, progress =>
    let path := file.path
    let span := file.clip start stop index
    if ¬ file.Overlaps start stop then visitLoop start stop act (index + 1) rest progress
    else if !file.opened then (some (.other s!"storage for {path} is not configured"), progress)
    else
      match act file span progress.state with
      | (some failure, state) => (some failure, { progress with state := state })
      | (none, state) =>
        visitLoop start stop act (index + 1) rest
          { done := progress.done + (span.last - span.first), state := state }

def visitFiles {S : Type} (files : List StoredFile) (start stop : Nat)
    (act : StoredFile -> FileRead -> S -> Option StorageError × S) (state : S) :
    Option StorageError × Progress S :=
  let range := overlappingFileRange (layout files) start stop
  visitLoop start stop act range.1 ((files.drop range.1).take (range.2 - range.1))
    { done := 0, state := state }

def slice (values : List UInt8) (first last : Nat) : List UInt8 :=
  (values.drop first).take (last - first)

/-- Write the part of a buffer that belongs to one file. -/
def writeSpan (data : List UInt8) (files : List StoredFile) (span : FileRead) : List StoredFile :=
  files.modify span.file (fun file =>
    { file with data := file.data.writeAllAt span.position (slice data span.first span.last) })

def readSpan (file : StoredFile) (span : FileRead) (buffer : List UInt8) :
    Option StorageError × List UInt8 :=
  match file.data.readExactAt span.position (span.last - span.first) with
  | none => (some (.io "failed to fill whole buffer"), buffer)
  | some chunk => (none, buffer.take span.first ++ chunk ++ buffer.drop span.last)

/-- The list of the parts of a range. -/
def planReads (start count : Nat) : Except StorageError (List FileRead) :=
  match visitFiles files start (start + count) (fun _ span spans => (none, spans ++ [span])) [] with
  | (some failure, _) => .error failure
  | (none, progress) =>
    if progress.done = count then .ok progress.state
    else .error (.other "short read from files")

/-- Write a range.  Files that were written before an error stay written. -/
def writeToFiles (start : Nat) (data : List UInt8) : Except StorageError Nat × List StoredFile :=
  match visitFiles files start (start + data.length)
      (fun _ span written => (none, writeSpan data written span)) files with
  | (some failure, progress) => (.error failure, progress.state)
  | (none, progress) =>
    if progress.done = data.length then (.ok progress.done, progress.state)
    else (.error (.other "short write to files"), progress.state)

def readFromFiles (start : Nat) (buffer : List UInt8) : Except StorageError (List UInt8) :=
  match visitFiles files start (start + buffer.length) readSpan buffer with
  | (some failure, _) => .error failure
  | (none, progress) =>
    if progress.done = buffer.length then .ok progress.state
    else .error (.other "short read from files")

/-! ## The slice of files -/

variable {files : List FileDescriptor}

section
variable (contiguous : Contiguous offset files)
include contiguous

theorem Contiguous.drop (count : Nat) : Exists fun later : Nat => Contiguous later (files.drop count) := by
  induction files generalizing offset count with
  | nil =>
    rw [drop_nil]
    exact ⟨0, trivial⟩
  | cons file rest ih =>
    cases count with
    | zero => exact ⟨offset, contiguous⟩
    | succ count => exact ih contiguous.2 count

theorem Contiguous.partitioned_ends (start : Nat) :
    Partitioned (fun file => decide (file.offset + file.length <= start)) files := by
  induction files generalizing offset with
  | nil => exact List.Pairwise.nil
  | cons file rest ih =>
    refine pairwise_cons.mpr ⟨?_, ih contiguous.2⟩
    intro later within ends
    have begins := contiguous.2.offset_le later within
    have first := contiguous.1
    have last := of_decide_eq_true ends
    exact decide_eq_true (by omega)

theorem Contiguous.partitioned_begins (stop : Nat) :
    Partitioned (fun file => decide (file.offset < stop)) files := by
  induction files generalizing offset with
  | nil => exact List.Pairwise.nil
  | cons file rest ih =>
    refine pairwise_cons.mpr ⟨?_, ih contiguous.2⟩
    intro later within before
    have begins := contiguous.2.offset_le later within
    have first := contiguous.1
    have last := of_decide_eq_true before
    exact decide_eq_true (by omega)

end

variable {files : List StoredFile} {file : StoredFile}

theorem getElem?_layout (there : files[index]? = some file) :
    (layout files)[index]? = some file.toFileDescriptor := by
  rw [layout, getElem?_map, there]
  rfl

theorem not_overlaps_of_outside (contiguous : Contiguous offset (layout files))
    (there : files[index]? = some file) {range : Nat × Nat}
    (isRange : overlappingFileRange (layout files) start stop = range)
    (outside : index < range.1 \/ range.2 <= index) :
    ¬ file.Overlaps start stop := by
  have known := getElem?_layout there
  have ends := contiguous.partitioned_ends start
  rw [StoredFile.Overlaps]
  rcases outside with before | behind
  · rw [<- isRange, overlappingFileRange, partitionPoint_eq ends] at before
    have finished := of_decide_eq_true ((below_iff_lt ends known).mpr before)
    omega
  rcases contiguous.drop range.1 with ⟨_, rest⟩
  have begins := rest.partitioned_begins stop
  have second : range.2 = range.1 +
      partitionPoint (fun file => decide (file.offset < stop)) ((layout files).drop range.1) := by
    rw [<- isRange]
    rfl
  rw [second, partitionPoint_eq begins] at behind
  have shifted : ((layout files).drop range.1)[index - range.1]? = some file.toFileDescriptor := by
    rw [getElem?_drop, <- known]
    congr 1
    omega
  have notBefore : ¬ file.offset < stop := by
    intro before
    have early := (below_iff_lt begins shifted).mp (decide_eq_true before)
    omega
  omega

theorem overlappingFileRange_le (files : List FileDescriptor) (start stop : Nat) :
    (overlappingFileRange files start stop).1 <= (overlappingFileRange files start stop).2 :=
  Nat.le_add_right _ _

section
variable {S : Type} {act : StoredFile -> FileRead -> S -> Option StorageError × S}
variable {progress : Progress S}

theorem visitLoop_of_not_overlaps (apart : ∀ file ∈ files, ¬ file.Overlaps start stop) :
    visitLoop start stop act index files progress = (none, progress) := by
  induction files generalizing index with
  | nil => rfl
  | cons file rest ih =>
    rw [visitLoop, if_pos (apart file mem_cons_self)]
    exact ih (fun other within => apart other (mem_cons_of_mem _ within))

theorem visitLoop_skip {before rest : List StoredFile}
    (apart : ∀ file ∈ before, ¬ file.Overlaps start stop) :
    visitLoop start stop act index (before ++ rest) progress =
    visitLoop start stop act (index + before.length) rest progress := by
  induction before generalizing index with
  | nil => rfl
  | cons file before ih =>
    rw [cons_append, visitLoop, if_pos (apart file mem_cons_self),
      ih (fun other within => apart other (mem_cons_of_mem _ within)), length_cons]
    congr 1
    omega

theorem visitLoop_until {first behind : List StoredFile}
    (apart : ∀ file ∈ behind, ¬ file.Overlaps start stop) :
    visitLoop start stop act index (first ++ behind) progress =
    visitLoop start stop act index first progress := by
  induction first generalizing index progress with
  | nil => exact visitLoop_of_not_overlaps apart
  | cons file first ih =>
    rw [cons_append, visitLoop, visitLoop]
    simp only [ih]

/-- The slice makes no difference: the loop does what it would do over all files. -/
theorem visitFiles_eq (contiguous : Contiguous offset (layout files)) (start stop : Nat)
    (state : S) : visitFiles files start stop act state =
      visitLoop start stop act 0 files { done := 0, state := state } := by
  have outside : ∀ (index : Nat) (file : StoredFile), files[index]? = some file ->
      index < (overlappingFileRange (layout files) start stop).1 \/
        (overlappingFileRange (layout files) start stop).2 <= index ->
      ¬ file.Overlaps start stop := fun _ _ there => not_overlaps_of_outside contiguous there rfl
  have ordered := overlappingFileRange_le (layout files) start stop
  rw [visitFiles]
  generalize overlappingFileRange (layout files) start stop = range at outside ordered
  have parts : files = files.take range.1 ++
      ((files.drop range.1).take (range.2 - range.1) ++ files.drop range.2) := by
    have later : files.drop range.2 = (files.drop range.1).drop (range.2 - range.1) := by
      rw [drop_drop]
      congr 1
      omega
    rw [later, take_append_drop, take_append_drop]
  have beforeApart : ∀ file ∈ files.take range.1, ¬ file.Overlaps start stop := by
    intro file within
    rcases mem_take_iff_getElem.mp within with ⟨index, _, same⟩
    refine outside index file ?_ (Or.inl (by omega))
    rw [getElem?_eq_getElem (by omega), same]
  have behindApart : ∀ file ∈ files.drop range.2, ¬ file.Overlaps start stop := by
    intro file within
    rcases mem_iff_getElem?.mp within with ⟨_, there⟩
    rw [getElem?_drop] at there
    exact outside _ file there (Or.inr (by omega))
  have whole : visitLoop start stop act 0 files { done := 0, state := state } =
      visitLoop start stop act 0 (files.take range.1 ++
        ((files.drop range.1).take (range.2 - range.1) ++ files.drop range.2))
        { done := 0, state := state } := by
    rw [<- parts]
  rw [whole, visitLoop_skip beforeApart, visitLoop_until behindApart]
  by_cases full : range.1 <= files.length
  · rw [length_take, Nat.min_eq_left full, Nat.zero_add]
  have none : files.drop range.1 = [] := drop_eq_nil_of_le (by omega)
  rw [none, take_nil]
  rfl

end

/-- The files that have bytes of a range, each with its part. -/
def spansFrom (start stop : Nat) : Nat -> List StoredFile -> List (StoredFile × FileRead)
  | _, [] => []
  | index, file :: rest =>
    if file.Overlaps start stop then
      (file, file.clip start stop index) :: spansFrom start stop (index + 1) rest
    else spansFrom start stop (index + 1) rest

/-- The places of the buffer that some parts fill, in order. -/
def places (spans : List FileRead) : List Nat :=
  spans.flatMap (fun span => List.range' span.first (span.last - span.first))

/-- A part stands in its file where the range says. -/
structure FileRead.LiesIn (span : FileRead) (start : Nat) (file : StoredFile) : Prop where
  nonempty : span.first < span.last
  begins : file.offset + span.position = start + span.first
  ends : span.position + (span.last - span.first) <= file.length

theorem range'_glue {first second more : Nat} (next : more = 0 \/ first + count = second) :
    List.range' first count ++ List.range' second more = List.range' first (count + more) := by
  rcases next with none | next
  · rw [none, range'_zero, append_nil, Nat.add_zero]
  · rw [<- next, range'_append_1]

theorem range'_congr {first second count more : Nat} (same : count = more)
    (start : count = 0 \/ first = second) : List.range' first count = List.range' second more := by
  subst same
  rcases start with none | rfl
  · rw [none, range'_zero, range'_zero]
  · rfl

theorem totalLength_layout_cons (file : StoredFile) (rest : List StoredFile) :
    totalLength (layout (file :: rest)) = file.length + totalLength (layout rest) := by
  rfl

theorem places_spansFrom (contiguous : Contiguous offset (layout files)) :
    places ((spansFrom start stop index files).map Prod.snd) = List.range' (max start offset - start)
      (min stop (offset + totalLength (layout files)) - max start offset) := by
  induction files generalizing offset index with
  | nil =>
    have none : min stop (offset + totalLength (layout [])) - max start offset = 0 := by
      show min stop (offset + 0) - _ = 0
      omega
    rw [none]
    rfl
  | cons file rest ih =>
    have total := totalLength_layout_cons file rest
    have begins : file.offset = offset := contiguous.1
    have later : places ((spansFrom start stop (index + 1) rest).map Prod.snd) = _ :=
      ih contiguous.2
    rw [total, spansFrom]
    split
    next overlaps =>
      rw [StoredFile.Overlaps] at overlaps
      rw [places, map_cons, flatMap_cons]
      rw [places] at later
      rw [later]
      dsimp only [StoredFile.clip]
      rw [begins] at overlaps ⊢
      rw [range'_glue (by omega)]
      congr 1
      omega
    next apart =>
      rw [StoredFile.Overlaps] at apart
      exact later.trans (range'_congr (by omega) (by omega))

theorem length_places (spans : List FileRead) :
    (places spans).length = (spans.map (fun span => span.last - span.first)).sum := by
  rw [places, length_flatMap]
  simp only [length_range']

theorem liesIn_of_mem_spansFrom {span : FileRead} (within : (file, span) ∈ spansFrom start stop index files) :
    index <= span.file /\ files[span.file - index]? = some file /\ span.LiesIn start file /\
    file.Overlaps start stop := by
  induction files generalizing index with
  | nil => cases within
  | cons head rest ih =>
    have later : (file, span) ∈ spansFrom start stop (index + 1) rest ->
        index <= span.file /\ (head :: rest)[span.file - index]? = some file /\ span.LiesIn start file /\
          file.Overlaps start stop := by
      intro behind
      rcases ih behind with ⟨_, there, lies⟩
      refine ⟨by omega, ?_, lies⟩
      have shift : span.file - index = span.file - (index + 1) + 1 := by omega
      rw [shift]
      exact there
    rw [spansFrom] at within
    split at within
    case isFalse => exact later within
    next overlaps =>
      rcases mem_cons.mp within with same | behind
      · cases same
        refine ⟨Nat.le_refl _, ?_, ?_, overlaps⟩
        · dsimp only [StoredFile.clip]
          rw [Nat.sub_self]
          rfl
        · rw [StoredFile.Overlaps] at overlaps
          constructor <;> dsimp only [StoredFile.clip] <;> omega
      · exact later behind

/-! ## What the loops do -/

def visitSpans {S : Type} (act : StoredFile -> FileRead -> S -> Option StorageError × S) :
    List (StoredFile × FileRead) -> Progress S -> Option StorageError × Progress S
  | [], progress => (none, progress)
  | (file, span) :: rest, progress =>
    match act file span progress.state with
    | (some failure, state) => (some failure, { progress with state := state })
    | (none, state) =>
      visitSpans act rest
        { done := progress.done + (span.last - span.first), state := state }

section
variable {S : Type} {act : StoredFile -> FileRead -> S -> Option StorageError × S}

theorem visitLoop_eq_visitSpans {progress : Progress S}
    (opened : ∀ file ∈ files, file.Overlaps start stop -> file.opened = true) :
    visitLoop start stop act index files progress =
    visitSpans act (spansFrom start stop index files) progress := by
  induction files generalizing index progress with
  | nil => rfl
  | cons file rest ih =>
    have later : ∀ progress : Progress S, visitLoop start stop act (index + 1) rest progress =
          visitSpans act (spansFrom start stop (index + 1) rest) progress :=
      fun _ => ih (fun other within => opened other (mem_cons_of_mem _ within))
    by_cases meets : file.Overlaps start stop
    · rw [visitLoop, spansFrom, if_neg (not_not_intro meets), if_pos meets,
        opened file mem_cons_self meets, visitSpans]
      simp only [Bool.not_true, Bool.false_eq_true, if_false, later]
    · rw [visitLoop, spansFrom, if_pos meets, if_neg meets, later]

theorem opened_of_visitLoop {before after : Progress S}
    (through : visitLoop start stop act index files before = (none, after)) :
    ∀ file ∈ files, file.Overlaps start stop -> file.opened = true := by
  induction files generalizing index before with
  | nil => nofun
  | cons head rest ih =>
    intro file within overlaps
    rw [visitLoop] at through
    split at through
    next apart =>
      rcases mem_cons.mp within with same | behind
      · rw [same] at overlaps
        exact absurd overlaps apart
      · exact ih through file behind overlaps
    · split at through
      · cases through
      rename_i isOpen
      split at through
      · cases through
      rcases mem_cons.mp within with rfl | behind
      · simpa using isOpen
      · exact ih through file behind overlaps

/-- A visit that cannot fail folds over the parts. -/
theorem visitSpans_of_total {change : FileRead -> S -> S}
    (total : ∀ file span state, act file span state = (none, change span state))
    (spans : List (StoredFile × FileRead)) (progress : Progress S) :
    visitSpans act spans progress = (none,
        { done := progress.done + (places (spans.map Prod.snd)).length
          state := (spans.map Prod.snd).foldl (fun state span => change span state)
            progress.state }) := by
  induction spans generalizing progress with
  | nil => rfl
  | cons head rest ih =>
    rcases head with ⟨_, _⟩
    rw [visitSpans, total]
    dsimp only
    rw [ih, length_places, length_places, map_cons, map_cons, sum_cons, foldl_cons]
    rw [Nat.add_assoc]

end

def OpenFor (files : List StoredFile) (start stop : Nat) : Prop :=
  ∀ file ∈ files, file.Overlaps start stop -> file.opened = true

theorem StoredFile.Overlaps.widen {first last : Nat} (overlaps : file.Overlaps first last)
    (above : start <= first) (below : last <= stop) : file.Overlaps start stop := by
  rw [StoredFile.Overlaps] at overlaps ⊢
  omega

theorem OpenFor.narrow {first last : Nat} (opened : OpenFor files start stop)
    (above : start <= first) (below : last <= stop) : OpenFor files first last :=
  fun file within overlaps => opened file within (overlaps.widen above below)

/-- The parts of a range in all files. -/
def spansOf (files : List StoredFile) (start stop : Nat) : List FileRead :=
  (spansFrom start stop 0 files).map Prod.snd

theorem places_spansOf (contiguous : Contiguous 0 (layout files))
    (inside : start + count <= totalLength (layout files)) :
    places (spansOf files start (start + count)) = List.range count := by
  rw [spansOf, places_spansFrom contiguous, range_eq_range']
  congr 1 <;> omega

theorem planReads_eq (contiguous : Contiguous 0 (layout files))
    (inside : start + count <= totalLength (layout files)) (opened : OpenFor files start (start + count)) :
    planReads files start count = .ok (spansOf files start (start + count)) := by
  have collected : ∀ (spans seen : List FileRead),
      spans.foldl (fun state span => state ++ [span]) seen = seen ++ spans := by
    intro spans
    induction spans with
    | nil =>
      intro seen
      exact (append_nil seen).symm
    | cons span spans ih =>
      intro seen
      rw [foldl_cons, ih, append_assoc]
      rfl
  have whole := places_spansOf contiguous inside
  rw [spansOf] at whole
  rw [planReads, visitFiles_eq contiguous, visitLoop_eq_visitSpans opened,
    visitSpans_of_total (fun _ _ _ => rfl)]
  dsimp only
  rw [whole, length_range, Nat.zero_add, if_pos rfl, collected, nil_append, spansOf]

def FileRead.range (start : Nat) (span : FileRead) : ByteRange where
  start := start + span.first
  stop := start + span.last

def collected (start : Nat) :
    Option StorageError × Progress (List FileRead) -> Except StorageError (Nat × List ByteRange)
  | (some failure, _) => .error failure
  | (none, progress) => .ok (progress.done, progress.state.map (FileRead.range start))

theorem collected_visitLoop (files : List StoredFile) (index : Nat) (progress : Progress (List FileRead)) :
    collected start (visitLoop start stop (fun _ span spans => (none, spans ++ [span])) index files
      progress) = (planLoop start stop (layout files)).map (fun parts =>
        (progress.done + (parts.map (fun part => part.stop - part.start)).sum,
          progress.state.map (FileRead.range start) ++ parts)) := by
  induction files generalizing index progress with
  | nil => exact congrArg Except.ok (by simp)
  | cons file rest ih =>
    rw [layout, map_cons, planLoop, visitLoop]
    dsimp only
    by_cases overlaps : file.Overlaps start stop
    · have some_ : max start file.offset < min stop (file.offset + file.length) := overlaps
      have clipped : (file.clip start stop index).range start =
          { start := max start file.offset, stop := min stop (file.offset + file.length) } := by
        rw [FileRead.range, StoredFile.clip]
        congr 1 <;> dsimp only <;> omega
      have length : (file.clip start stop index).last - (file.clip start stop index).first =
          min stop (file.offset + file.length) - max start file.offset := by
        dsimp only [StoredFile.clip]
        omega
      rw [if_neg (not_not_intro overlaps), if_neg (Nat.not_le.mpr some_)]
      cases file.opened with
      | false => rfl
      | true =>
        simp only [Bool.not_true, Bool.false_eq_true, if_false, ih, layout]
        cases planLoop start stop (rest.map StoredFile.toFileDescriptor) with
        | error => rfl
        | ok => simp [Except.map, clipped, length, Nat.add_assoc]
    · rw [if_pos overlaps, if_pos (Nat.not_lt.mp overlaps)]
      exact ih (index + 1) progress

theorem map_range_planReads (contiguous : Contiguous 0 (layout files)) :
    (planReads files start count).map (map (FileRead.range start)) =
      planFileReads (layout files) start count := by
  have same := @collected_visitLoop start (start + count) files 0 { done := 0, state := [] }
  rw [planReads, visitFiles_eq contiguous, planFileReads, planLoop_filesOverlapping contiguous]
  generalize visitLoop start (start + count) _ 0 files _ = visited at same ⊢
  generalize planLoop start (start + count) (layout files) = planned at same ⊢
  rcases visited with ⟨_ | _, done, spans⟩
  · cases planned with
    | error => cases same
    | ok =>
      rcases Prod.mk.inj (Except.ok.inj same) with ⟨counted, parts⟩
      dsimp only at counted parts ⊢
      subst parts
      rw [counted, Nat.zero_add]
      split <;> rfl
  · cases planned <;> cases same
    rfl

end TorrentPlayer.Storage
