import TorrentPlayer.Storage.ReadAfterWrite

namespace TorrentPlayer.Storage

open Library FileData List

/-!
# Hashing files with holes

The hash of a piece that is not in memory is taken over its files.  Where the
file system tells holes from data, holes are hashed as zeros without reading
them.  Where it does not, a file is read from end to end.

The hash is fed with bytes one part after the other.  What has been fed cannot be
taken back, so it matters how far the walk through a file had come when the file
system refuses.
-/

/-- A part of a file: where it begins and how long it is. -/
structure FileSpan where
  file : Nat
  offset : Nat
  length : Nat

/-- What `seek_data` or `seek_hole` answers. -/
inductive SeekAnswer where
  | found (position : Nat)
  | none
  | unsupported

/-- The answers of the file system, by file and position.  A walk asks each
question once. -/
structure Seeks where
  data : Nat -> Nat -> SeekAnswer
  hole : Nat -> Nat -> SeekAnswer

inductive HashError where
  | invalidSpan
  | unsupported
  | shortRead

/-- What the hash has been fed with, and whether any of it was data. -/
structure Walk where
  fed : List UInt8 := []
  sawData : Bool := false

namespace Walk

def zeros (walk : Walk) (count : Nat) : Walk :=
  { walk with fed := walk.fed ++ List.replicate count 0 }

end Walk

/-- Read a part of a file from its begin to its end. -/
def hashSpanDense (data : FileData) (offset length : Nat) (walk : Walk) : Option HashError × Walk :=
  match data.readExactAt offset length with
  | none => (some .shortRead, walk)
  | some bytes =>
    (none,
      { fed := walk.fed ++ bytes
        sawData := walk.sawData || bytes.any (fun byte => byte != 0) })

/-- Where the data that begins at a position ends, at most at `stop`. -/
def SeekAnswer.holeBefore (stop : Nat) : SeekAnswer -> Option Nat
  | .found position => some (min position stop)
  | .none => some stop
  | .unsupported => Option.none

/-- Walk from hole to data and from data to hole, up to `stop`.  Every round moves
forward, so as many rounds as there are bytes are enough. -/
def hashSpanSparse (seeks : Seeks) (data : FileData) (file stop : Nat) :
    Nat -> Nat -> Walk -> Option HashError × Walk
  | 0, _, walk => (none, walk)
  | rounds + 1, place, walk =>
    if stop <= place then (none, walk)
    else
      match seeks.data file place with
      | .unsupported => (some .unsupported, walk)
      | .none => (none, walk.zeros (stop - place))
      | .found position =>
        if stop <= position then (none, walk.zeros (stop - place))
        else
          let first := max place position
          let begun := walk.zeros (position - place)
          match (seeks.hole file first).holeBefore stop with
          | none => (some .unsupported, begun)
          | some last =>
            if last <= first then hashSpanDense data first (stop - first) begun
            else
              match data.readExactAt first (last - first) with
              | none => (some .shortRead, begun)
              | some bytes =>
                hashSpanSparse seeks data file stop rounds last
                  { fed := begun.fed ++ bytes, sawData := true }

/-- Hash some spans.  A file that refuses is read from the begin of its span. -/
def hashSpans (files : List StoredFile) (seeks : Seeks) : List FileSpan -> Walk -> Except HashError Walk
  | [], walk => .ok walk
  | span :: rest, walk =>
    match files[span.file]? with
    | none => .error .invalidSpan
    | some file =>
      if span.length = 0 then hashSpans files seeks rest walk
      else
        match hashSpanSparse seeks file.data span.file (span.offset + span.length) span.length
            span.offset walk with
        | (none, after) => hashSpans files seeks rest after
        | (some .unsupported, after) =>
          match hashSpanDense file.data span.offset span.length after with
          | (none, again) => hashSpans files seeks rest again
          | (some failure, _) => .error failure
        | (some failure, _) => .error failure

/-- The bytes that are hashed, and whether all of them are holes. -/
def hashExtents (files : List StoredFile) (seeks : Seeks) (spans : List FileSpan) :
    Except HashError (List UInt8 × Bool) :=
  (hashSpans files seeks spans {}).map (fun walk => (walk.fed, !walk.sawData))

/-- The spans of a range, or nothing if a file is not open. -/
def byteSpansFrom (start stop : Nat) : Nat -> List StoredFile -> Option (List FileSpan)
  | _, [] => some []
  | index, file :: rest =>
    if ¬ file.Overlaps start stop then byteSpansFrom start stop (index + 1) rest
    else if !file.opened then none
    else
      (byteSpansFrom start stop (index + 1) rest).map (fun spans =>
        { file := index
          offset := max start file.offset - file.offset
          length := min stop (file.offset + file.length) - max start file.offset } :: spans)

def byteSpans (files : List StoredFile) (start stop : Nat) : Option (List FileSpan) :=
  (byteSpansFrom start stop 0 files).filter (fun spans => !spans.isEmpty)

/-! ## One file -/

variable {count : Nat}

namespace FileData

/-- The bytes of a part of a file. -/
def region (data : FileData) (offset count : Nat) : List UInt8 :=
  (List.range' offset count).map data.get

theorem region_append (data : FileData) (offset first second : Nat) :
    data.region offset first ++ data.region (offset + first) second =
    data.region offset (first + second) := by
  rw [region, region, region, <- map_append, range'_append_1]

theorem region_split (data : FileData) {place middle last : Nat} (before : place <= middle)
    (behind : middle <= last) : data.region place (middle - place) ++ data.region middle (last - middle) =
    data.region place (last - place) := by
  have whole := data.region_append place (middle - place) (last - middle)
  have there : place + (middle - place) = middle := by omega
  have sum : middle - place + (last - middle) = last - place := by omega
  rw [there, sum] at whole
  exact whole

theorem region_of_zeros {data : FileData} {offset : Nat}
    (zeros : ∀ position, offset <= position -> position < offset + count ->
      data.get position = 0) : data.region offset count = List.replicate count 0 := by
  rw [region, eq_replicate_iff, length_map, length_range']
  refine ⟨rfl, ?_⟩
  intro byte within
  rcases mem_map.mp within with ⟨position, inside, same⟩
  rw [mem_range'_1] at inside
  rw [<- same]
  exact zeros position inside.1 inside.2

theorem forall_region_zero {data : FileData} {offset : Nat} :
    (∀ byte ∈ data.region offset count, byte = 0) <->
      ∀ position, offset <= position -> position < offset + count -> data.get position = 0 := by
  rw [region, forall_mem_map]
  simp only [mem_range'_1, and_imp]

theorem readExactAt_of_full {data : FileData} {offset : Nat} (full : offset + count <= data.len) :
    data.readExactAt offset count = some (data.region offset count) := by
  have read : data.readExactAt offset count =
      some ((List.range count).map (fun step => data.byte (offset + step))) := by
    rw [readExactAt, if_pos full]
  rw [read, (readExactAt_eq read).2, region, range'_eq_map_range, map_map]
  rfl

end FileData

/-- The answers are true of a file: where no data is said to be, there are zeros. -/
structure Seeks.TrueOf (seeks : Seeks) (file : Nat) (data : FileData) : Prop where
  found : ∀ {place position : Nat}, seeks.data file place = .found position -> place <= position /\
      ∀ between, place <= between -> between < position -> data.get between = 0
  none : ∀ {place : Nat}, seeks.data file place = .none ->
    ∀ between, place <= between -> data.get between = 0

structure Walk.Reaches (data : FileData) (place reached : Nat) (before after : Walk) : Prop where
  fed : after.fed = before.fed ++ data.region place (reached - place)
  zeros : after.sawData = false -> before.sawData = false /\
    ∀ position, place <= position -> position < reached -> data.get position = 0

namespace Walk.Reaches

variable {data : FileData} {place middle reached : Nat} {before between after : Walk}

theorem refl (walk : Walk) (past : reached <= place) : Reaches data place reached walk walk where
  fed := by rw [Nat.sub_eq_zero_of_le past, region, range'_zero, map_nil, append_nil]
  zeros none := ⟨none, fun position above below => absurd below (by omega)⟩

theorem trans (first : Reaches data place middle before between)
    (second : Reaches data middle reached between after) (one : place <= middle)
    (two : middle <= reached) : Reaches data place reached before after where
  fed := by rw [second.fed, first.fed, append_assoc, data.region_split one two]
  zeros blank := by
    rcases second.zeros blank with ⟨earlier, late⟩
    rcases first.zeros earlier with ⟨none, early⟩
    refine ⟨none, ?_⟩
    intro position above below
    by_cases here : position < middle
    · exact early position above here
    · exact late position (by omega) below

theorem zerosTo (walk : Walk)
    (blank : ∀ position, place <= position -> position < reached -> data.get position = 0) :
    Reaches data place reached walk (walk.zeros (reached - place)) where
  fed := by
    rw [region_of_zeros (fun position above below => blank position above (by omega))]
    rfl
  zeros none := ⟨none, blank⟩

theorem dense (walk : Walk) (full : place + count <= data.len) :
    Exists fun after => hashSpanDense data place count walk = (none, after) /\
    Reaches data place (place + count) walk after /\ (after.sawData = false <-> walk.sawData = false /\
      ∀ position, place <= position -> position < place + count -> data.get position = 0) := by
  rw [hashSpanDense, readExactAt_of_full full]
  have saw : (walk.sawData || (data.region place count).any (fun byte => byte != 0)) = false <->
      walk.sawData = false /\
        ∀ position, place <= position -> position < place + count -> data.get position = 0 := by
    rw [Bool.or_eq_false_iff, any_eq_false, <- forall_region_zero]
    simp
  refine ⟨_, rfl, ⟨?_, saw.mp⟩, saw⟩
  rw [Nat.add_sub_cancel_left]

end Walk.Reaches

/-- Where in a file the walk to `stop` meets a refusal. -/
def Seeks.refusedAt (seeks : Seeks) (file stop : Nat) : Nat -> Nat -> Option Nat
  | 0, _ => none
  | rounds + 1, place =>
    if stop <= place then none
    else
      match seeks.data file place with
      | .unsupported => some place
      | .none => none
      | .found position =>
        if stop <= position then none
        else
          match (seeks.hole file (max place position)).holeBefore stop with
          | none => some (max place position)
          | some last =>
            if last <= max place position then none
            else seeks.refusedAt file stop rounds last

theorem SeekAnswer.le_of_holeBefore {answer : SeekAnswer} {stop last : Nat}
    (ends : answer.holeBefore stop = some last) : last <= stop := by
  cases answer with
  | found | none =>
    rw [holeBefore, Option.some.injEq] at ends
    omega
  | unsupported => cases ends

/-- A walk feeds the bytes up to the refusal, or to the end. -/
theorem hashSpanSparse_spec {seeks : Seeks} {data : FileData} {file stop : Nat}
    (honest : seeks.TrueOf file data) (full : stop <= data.len) {rounds place : Nat}
    (before : place <= stop) (enough : stop - place <= rounds) (walk : Walk) :
    Exists fun after => Exists fun reached =>
    hashSpanSparse seeks data file stop rounds place walk =
      ((seeks.refusedAt file stop rounds place).map (fun _ => HashError.unsupported), after) /\
    (seeks.refusedAt file stop rounds place).getD stop = reached /\
    place <= reached /\ reached <= stop /\ Walk.Reaches data place reached walk after := by
  induction rounds generalizing place walk with
  | zero => exact ⟨walk, stop, rfl, rfl, before, Nat.le_refl _, .refl walk (by omega)⟩
  | succ rounds ih =>
    rw [hashSpanSparse, Seeks.refusedAt]
    split
    next past => exact ⟨walk, stop, rfl, rfl, before, Nat.le_refl _, .refl walk past⟩
    · cases answer : seeks.data file place with
      | unsupported => exact ⟨walk, place, rfl, rfl, Nat.le_refl _, by omega, .refl walk (Nat.le_refl _)⟩
      | none =>
        exact ⟨_, stop, rfl, rfl, before, Nat.le_refl _,
          .zerosTo walk (fun position above _ => honest.none answer position above)⟩
      | found position =>
        rcases honest.found answer with ⟨ahead, blank⟩
        dsimp only
        split
        · exact ⟨_, stop, rfl, rfl, before, Nat.le_refl _,
            .zerosTo walk (fun between above below => blank between above (by omega))⟩
        have begins : max place position = position := Nat.max_eq_right ahead
        have begun : Walk.Reaches data place position walk (walk.zeros (position - place)) :=
          .zerosTo walk blank
        rw [begins]
        cases ends : (seeks.hole file position).holeBefore stop with
        | none => exact ⟨_, position, rfl, rfl, ahead, by omega, begun⟩
        | some last =>
          dsimp only
          split
          · rcases Walk.Reaches.dense (walk.zeros (position - place))
              (show position + (stop - position) <= data.len by omega) with
              ⟨after, read, reaches, _⟩
            have there : position + (stop - position) = stop := by omega
            rw [there] at reaches
            exact ⟨after, stop, read, rfl, before, Nat.le_refl _, begun.trans reaches ahead (by omega)⟩
          · have bounded := SeekAnswer.le_of_holeBefore ends
            rw [readExactAt_of_full (by omega)]
            rcases ih bounded (by omega)
              { fed := (walk.zeros (position - place)).fed ++
                  data.region position (last - position)
                sawData := true } with
              ⟨after, reached, walked, where_, above, below, reaches⟩
            have read : Walk.Reaches data position last (walk.zeros (position - place))
                { fed := (walk.zeros (position - place)).fed ++
                    data.region position (last - position)
                  sawData := true } :=
              ⟨rfl, nofun⟩
            exact ⟨after, reached, walked, where_, by omega, below,
              begun.trans (read.trans reaches (by omega) above) ahead (by omega)⟩

/-- The first questions about a part of a file name no data in it. -/
def Seeks.NamesNoData (seeks : Seeks) (file place stop : Nat) : Prop :=
  ∀ position, seeks.data file place = .found position -> position < stop ->
    ∀ last ∈ (seeks.hole file position).holeBefore stop, last <= position

theorem sawData_hashSpanSparse {seeks : Seeks} {data : FileData} {file stop : Nat}
    (honest : seeks.TrueOf file data) (full : stop <= data.len) {rounds place : Nat}
    (before : place < stop) (enough : stop - place <= rounds + 1) {walk : Walk}
    (blank : ∀ position, place <= position -> position < stop -> data.get position = 0)
    (unseen : walk.sawData = false) :
    (hashSpanSparse seeks data file stop (rounds + 1) place walk).2.sawData = false <->
      seeks.NamesNoData file place stop := by
  rw [hashSpanSparse, if_neg (by omega), Seeks.NamesNoData]
  cases answer : seeks.data file place with
  | unsupported | none => exact ⟨fun _ => nofun, fun _ => unseen⟩
  | found position =>
    have ahead := (honest.found answer).1
    simp only [SeekAnswer.found.injEq, forall_eq', Nat.max_eq_right ahead]
    split
    · exact ⟨fun _ _ => by omega, fun _ => unseen⟩
    next short =>
    rw [forall_prop_of_true (Nat.lt_of_not_le short)]
    cases ends : (seeks.hole file position).holeBefore stop with
    | none => exact ⟨fun _ => nofun, fun _ => unseen⟩
    | some last =>
      simp only [Option.mem_some_iff, forall_eq']
      split
      next none_ =>
        rcases Walk.Reaches.dense (walk.zeros (position - place))
          (show position + (stop - position) <= data.len by omega) with ⟨after, read, _, saw⟩
        rw [read]
        refine ⟨fun _ => none_, fun _ => saw.mpr ⟨unseen, fun between above below => ?_⟩⟩
        exact blank between (by omega) (by omega)
      next some_ =>
        refine ⟨fun noted => ?_, fun none_ => absurd none_ some_⟩
        -- What is noted once stays noted.
        have bounded := SeekAnswer.le_of_holeBefore ends
        rw [readExactAt_of_full (by omega)] at noted
        rcases hashSpanSparse_spec honest full bounded (show stop - last <= rounds by omega)
          { fed := (walk.zeros (position - place)).fed ++ data.region position (last - position)
            sawData := true } with ⟨after, _, walked, _, _, _, reaches⟩
        dsimp only at noted
        rw [walked] at noted
        cases (reaches.zeros noted).1

/-! ## All files of a range -/

/-- Where the walk through a span meets a refusal. -/
def Seeks.refusal (seeks : Seeks) (span : FileSpan) : Option Nat :=
  seeks.refusedAt span.file (span.offset + span.length) span.length span.offset

/-- The walk through a span is refused at its begin or not at all. -/
def Seeks.Whole (seeks : Seeks) (span : FileSpan) : Prop :=
  seeks.refusal span = none ∨ seeks.refusal span = some span.offset

instance (seeks : Seeks) (span : FileSpan) : Decidable (seeks.Whole span) :=
  inferInstanceAs (Decidable (_ ∨ _))

section
variable (files : List StoredFile) (seeks : Seeks)

def spanData (span : FileSpan) : FileData :=
  ((files[span.file]?).map StoredFile.data).getD { len := 0, byte := fun _ => 0 }

def spanBytes (span : FileSpan) : List UInt8 :=
  (spanData files span).region span.offset span.length

/-- The file system names no data in a span, and there is none but zeros. -/
def Unnoted (span : FileSpan) : Prop :=
  seeks.NamesNoData span.file span.offset (span.offset + span.length) ∧
    ∀ byte ∈ spanBytes files span, byte = 0

/-- The bytes that a span feeds before it is read from its begin. -/
def repeatedBytes (span : FileSpan) : List UInt8 :=
  match seeks.refusal span with
  | none => []
  | some place => (spanData files span).region span.offset (place - span.offset)

end

section
variable {files : List StoredFile} {seeks : Seeks}

/-- Whatever the first span feeds before its bytes, the rest goes on from there. -/
theorem hashSpans_cons {span : FileSpan} {file : StoredFile} (there : files[span.file]? = some file)
    (full : span.offset + span.length <= file.data.len) (honest : seeks.TrueOf span.file file.data)
    (rest : List FileSpan) (walk : Walk) : Exists fun middle =>
      hashSpans files seeks (span :: rest) walk = hashSpans files seeks rest middle /\
      middle.fed = walk.fed ++ (repeatedBytes files seeks span ++ spanBytes files span) /\
      (middle.sawData = false <-> walk.sawData = false /\ Unnoted files seeks span) := by
  have data : spanData files span = file.data := by
    rw [spanData, there]
    rfl
  rw [hashSpans, there, Unnoted, spanBytes, data, forall_region_zero]
  dsimp only
  split
  next empty =>
    refine ⟨walk, rfl, ?_, fun none => ⟨none, ?_, fun _ _ _ => by omega⟩, And.left⟩
    · have refused : seeks.refusal span = none := by
        rw [Seeks.refusal, empty]
        rfl
      rw [repeatedBytes, refused, empty]
      exact (append_nil _).symm
    · intro position found inside
      have ahead := (honest.found found).1
      omega
  next some_ =>
    rcases hashSpanSparse_spec honest full (Nat.le_add_right span.offset span.length)
      (show span.offset + span.length - span.offset <= span.length by omega) walk with
      ⟨after, reached, walked, place, above, below, reaches⟩
    have noted : walk.sawData = false -> (∀ position, span.offset <= position ->
        position < span.offset + span.length -> file.data.get position = 0) ->
        (after.sawData = false <->
          seeks.NamesNoData span.file span.offset (span.offset + span.length)) := by
      intro unseen blank
      rcases Nat.exists_eq_succ_of_ne_zero some_ with ⟨rounds, isSucc⟩
      have saw := sawData_hashSpanSparse honest full (by omega)
        (show span.offset + span.length - span.offset <= rounds + 1 by omega) blank unseen
      rw [<- Nat.succ_eq_add_one, <- isSucc, walked] at saw
      exact saw
    rw [walked]
    rw [show seeks.refusedAt span.file (span.offset + span.length) span.length span.offset =
      seeks.refusal span from rfl] at place ⊢
    cases refused : seeks.refusal span with
    | none =>
      rw [refused, Option.getD_none] at place
      subst place
      refine ⟨after, rfl, ?_, fun none => ?_, fun both => (noted both.1 both.2.2).mpr both.2.1⟩
      · rw [reaches.fed, Nat.add_sub_cancel_left, repeatedBytes, refused]
        rfl
      · rcases reaches.zeros none with ⟨earlier, zeros⟩
        exact ⟨earlier, (noted earlier zeros).mp none, zeros⟩
    | some =>
      rw [refused, Option.getD_some] at place
      rcases Walk.Reaches.dense after full with ⟨again, read, whole, saw⟩
      dsimp only [Option.map_some]
      rw [read]
      refine ⟨again, rfl, ?_, fun none => ?_, fun both =>
        saw.mpr ⟨(noted both.1 both.2.2).mpr both.2.1, both.2.2⟩⟩
      · rw [whole.fed, reaches.fed, Nat.add_sub_cancel_left, repeatedBytes, refused, <- place,
          data, append_assoc]
      · rcases saw.mp none with ⟨earlier, zeros⟩
        have first := (reaches.zeros earlier).1
        exact ⟨first, (noted first zeros).mp earlier, zeros⟩

theorem hashSpans_spec {spans : List FileSpan}
    (inside : ∀ span ∈ spans, Exists fun file => files[span.file]? = some file /\
      span.offset + span.length <= file.data.len /\ seeks.TrueOf span.file file.data) (walk : Walk) :
    Exists fun after => hashSpans files seeks spans walk = .ok after /\ after.fed = walk.fed ++
      spans.flatMap (fun span => repeatedBytes files seeks span ++ spanBytes files span) /\
    (after.sawData = false <-> walk.sawData = false /\ ∀ span ∈ spans, Unnoted files seeks span) := by
  induction spans generalizing walk with
  | nil => exact ⟨walk, rfl, (append_nil _).symm, fun none => ⟨none, nofun⟩, And.left⟩
  | cons span rest ih =>
    rcases inside span mem_cons_self with ⟨file, there, full, honest⟩
    rcases hashSpans_cons there full honest rest walk with ⟨middle, first, fed, noted⟩
    rcases ih (fun other within => inside other (mem_cons_of_mem _ within)) middle with
      ⟨after, walked, fedAll, notedAll⟩
    refine ⟨after, first.trans walked, ?_, ?_⟩
    · rw [fedAll, fed, flatMap_cons, append_assoc]
    · rw [notedAll, noted, forall_mem_cons, and_assoc]

/-- The bytes of the files are all that is fed just where no span repeats itself. -/
theorem fed_eq_iff (spans : List FileSpan)
    (refusals : ∀ span ∈ spans, ∀ place, seeks.refusal span = some place -> span.offset <= place) :
    spans.flatMap (fun span => repeatedBytes files seeks span ++ spanBytes files span) =
      spans.flatMap (spanBytes files) <-> ∀ span ∈ spans, seeks.Whole span := by
  have size : ∀ span ∈ spans, (seeks.Whole span <-> (repeatedBytes files seeks span).length = 0) := by
    intro span within
    rw [Seeks.Whole, repeatedBytes]
    cases refused : seeks.refusal span with
    | none => exact ⟨fun _ => rfl, fun _ => Or.inl rfl⟩
    | some place =>
      have above := refusals span within place refused
      dsimp only
      rw [region, length_map, length_range']
      constructor
      · rintro (none | same)
        · cases none
        · rw [Option.some.inj same, Nat.sub_self]
      · intro same
        exact .inr (by rw [show place = span.offset by omega])
  have total : (spans.flatMap (fun span => repeatedBytes files seeks span ++ spanBytes files span)).length =
        (spans.flatMap (repeatedBytes files seeks)).length + (spans.flatMap (spanBytes files)).length := by
    clear refusals size
    induction spans with
    | nil => rfl
    | cons =>
      rw [flatMap_cons, flatMap_cons, flatMap_cons, length_append,
        length_append, length_append, length_append]
      omega
  constructor
  · intro same span within
    have lengths := congrArg List.length same
    have none : spans.flatMap (repeatedBytes files seeks) = [] :=
      eq_nil_of_length_eq_zero (by omega)
    rw [size span within, flatMap_eq_nil_iff.mp none span within]
    rfl
  · intro whole
    refine flatMap_congr fun span within => ?_
    have none := eq_nil_of_length_eq_zero ((size span within).mp (whole span within))
    rw [none, nil_append]

end

/-! ## The spans of a range have its bytes -/

def FileRead.span (part : FileRead) : FileSpan where
  file := part.file
  offset := part.position
  length := part.last - part.first

theorem byteSpansFrom_eq {start stop index : Nat} {files : List StoredFile}
    (opened : OpenFor files start stop) : byteSpansFrom start stop index files =
    some ((spansFrom start stop index files).map (fun part => part.2.span)) := by
  induction files generalizing index with
  | nil => rfl
  | cons file rest ih =>
    have later := fun index => @ih index (fun other within => opened other (mem_cons_of_mem _ within))
    rw [byteSpansFrom, spansFrom]
    by_cases meets : file.Overlaps start stop
    · rw [if_neg (not_not_intro meets), if_pos meets, opened file mem_cons_self meets, later]
      have length : min stop (file.offset + file.length) - max start file.offset =
          min stop (file.offset + file.length) - start - (max start file.offset - start) := by
        omega
      rw [length]
      rfl
    · rw [if_pos meets, if_neg meets, later]

theorem region_spansFrom {offset start stop index : Nat} {files : List StoredFile}
    (contiguous : Contiguous offset (layout files)) : (spansFrom start stop index files).flatMap
      (fun part => part.1.data.region part.2.span.offset part.2.span.length) =
    (List.range' (max start offset)
      (min stop (offset + totalLength (layout files)) - max start offset)).map (byteAt files) := by
  induction files generalizing offset index with
  | nil =>
    have none : min stop (offset + totalLength (layout [])) - max start offset = 0 := by
      show min stop (offset + 0) - _ = 0
      omega
    rw [none]
    rfl
  | cons file rest ih =>
    have total := totalLength_layout_cons file rest
    have begins : file.offset = offset := contiguous.1
    have later := @ih (offset + file.length) (index + 1) contiguous.2
    have behind : (List.range' (max start (offset + file.length))
        (min stop (offset + file.length + totalLength (layout rest)) -
          max start (offset + file.length))).map (byteAt rest) =
        (List.range' (max start (offset + file.length))
          (min stop (offset + file.length + totalLength (layout rest)) -
            max start (offset + file.length))).map (byteAt (file :: rest)) := by
      apply map_congr_left
      intro position within
      have inside := mem_range'_1.mp within
      rw [byteAt_of_behind (by omega)]
    rw [total, spansFrom]
    split
    · rw [flatMap_cons, later, behind]
      dsimp only [StoredFile.clip, FileRead.span]
      rw [begins]
      have own : file.data.region (max start offset - offset)
          (min stop (offset + file.length) - start - (max start offset - start)) =
          (List.range' (max start offset) (min stop (offset + file.length) - max start offset)).map
              (byteAt (file :: rest)) := by
        rw [region, range'_eq_map_range, map_map, range'_eq_map_range, map_map]
        have count : min stop (offset + file.length) - start - (max start offset - start) =
            min stop (offset + file.length) - max start offset := by omega
        rw [count]
        apply map_congr_left
        intro step within
        have before := mem_range.mp within
        have place : max start offset + step - offset = max start offset - offset + step := by omega
        rw [Function.comp_apply, Function.comp_apply, byteAt_of_before (by omega), begins, place]
      rw [own, <- map_append, range'_glue (by omega)]
      congr 2
      omega
    next apart =>
      rw [StoredFile.Overlaps] at apart
      rw [later, behind]
      exact congrArg _ (range'_congr (by omega) (by omega))

theorem byteSpans_spec {files : List StoredFile} (contiguous : Contiguous 0 (layout files))
    {start : Nat} (inside : start + count <= totalLength (layout files))
    (opened : OpenFor files start (start + count)) (full : FullFor files start (start + count)) :
    Exists fun spans => byteSpans files start (start + count) = (if count = 0 then none else some spans) /\
    (∀ span ∈ spans, Exists fun file => files[span.file]? = some file /\ span.offset + span.length <=
      file.data.len) /\ spans.flatMap (spanBytes files) = (List.range' start count).map (byteAt files) := by
  have within : ∀ part ∈ spansFrom start (start + count) 0 files,
      files[part.2.span.file]? = some part.1 /\
        part.2.span.offset + part.2.span.length <= part.1.data.len := by
    intro part member
    rcases liesIn_of_mem_spansFrom member with ⟨_, there, lies, overlaps⟩
    have long := full part.1 (mem_of_getElem? there) overlaps
    exact ⟨there, Nat.le_trans lies.ends long⟩
  have bytes : ((spansFrom start (start + count) 0 files).map (fun part => part.2.span)).flatMap
      (spanBytes files) = (List.range' start count).map (byteAt files) := by
    have regions := @region_spansFrom 0 start (start + count) 0 files contiguous
    rw [Nat.max_eq_left (Nat.zero_le start), Nat.min_eq_left (by omega), Nat.add_sub_cancel_left] at regions
    rw [<- regions, flatMap_map]
    refine flatMap_congr fun part member => ?_
    rw [spanBytes, spanData, (within part member).1]
    rfl
  refine ⟨_, ?_, ?_, bytes⟩
  · rw [byteSpans, byteSpansFrom_eq opened]
    cases parts : spansFrom start (start + count) 0 files with
    | nil =>
      have none : count = 0 := by
        have lengths := congrArg List.length bytes
        rw [parts, length_map, length_range'] at lengths
        exact lengths.symm
      rw [if_pos none]
      rfl
    | cons part =>
      have some_ : count ≠ 0 := by
        intro none
        have member : part ∈ spansFrom start (start + count) 0 files := by
          rw [parts]
          exact mem_cons_self
        have overlaps := (liesIn_of_mem_spansFrom member).2.2.2
        rw [StoredFile.Overlaps] at overlaps
        omega
      rw [if_neg some_]
      rfl
  · intro span member
    rcases mem_map.mp member with ⟨part, there, rfl⟩
    exact ⟨part.1, within part there⟩

end TorrentPlayer.Storage
