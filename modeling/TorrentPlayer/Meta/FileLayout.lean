import TorrentPlayer.Library.Placement
import TorrentPlayer.Meta.Metainfo

namespace TorrentPlayer.Meta

open Library List

/-!
# The layout of the files

The parsers give each file an offset in the torrent, and the rest of the engine works
with the sum of the lengths.  This module says when the two agree: which lengths keep
every file inside the torrent, with every sum inside 64 bits.
-/

/-! ## The offsets of the parsers -/

def LaidOut (advance : Int64 -> Int64 -> Int64) : Int64 -> List FileInfo -> Int64 -> Prop
  | start, [], stop => stop = start
  | start, file :: files, stop =>
    file.torrentOffset = start /\ LaidOut advance (advance start file.length) files stop

variable {files before after : List FileInfo} {stop first second : Int64}

theorem LaidOut.append {advance : Int64 -> Int64 -> Int64} {later : List FileInfo}
    {start middle : Int64} (first : LaidOut advance start files middle)
    (second : LaidOut advance middle later stop) : LaidOut advance start (files ++ later) stop := by
  induction files generalizing start with
  | nil =>
    rw [<- show middle = start from first]
    exact second
  | cons file files ih => exact ⟨first.1, ih first.2⟩

theorem laidOut_v1Files {items : List Value} {offset : Int64} (parsed : v1Files offset items = .ok files) :
    Exists fun stop => LaidOut (· + ·) offset files stop := by
  induction items generalizing offset files with
  | nil =>
    cases parsed
    exact ⟨offset, rfl⟩
  | cons item items ih =>
    rw [v1Files] at parsed
    split at parsed
    · cases parsed
    split at parsed
    · cases parsed
    rename_i later rest
    cases parsed
    rcases ih rest with ⟨stop, laid⟩
    exact ⟨stop, rfl, laid⟩

mutual

theorem laidOut_walkFileTree {pieceLength : Int64} : ∀ {node : Value}
    {path : List (List UInt8)} {offset stop : Int64} {files : List FileInfo},
    walkFileTree pieceLength node path offset = .ok (files, stop) ->
    LaidOut (alignedOffset pieceLength) offset files stop
  | .int _, _, _, _, _, walked | .bytes _, _, _, _, _, walked | .list _, _, _, _, _, walked => by cases walked
  | .dict entries, path, offset, stop, files, walked => by
      rw [walkFileTree] at walked
      split at walked
      · cases walked
        exact ⟨rfl, rfl⟩
      · exact laidOut_walkEntries walked

theorem laidOut_walkEntries {pieceLength : Int64} : ∀ {entries : List (List UInt8 × Value)}
    {path : List (List UInt8)} {offset stop : Int64} {files : List FileInfo},
    walkEntries pieceLength entries path offset = .ok (files, stop) ->
    LaidOut (alignedOffset pieceLength) offset files stop
  | [], _, _, _, _, walked => by
      cases walked
      rfl
  | (key, child) :: entries, path, offset, stop, files, walked => by
      rw [walkEntries] at walked
      split at walked
      · exact laidOut_walkEntries walked
      split at walked
      · cases walked
      rename_i first middle node
      split at walked
      · cases walked
      next later stop' rest =>
        cases walked
        exact (laidOut_walkFileTree node).append (laidOut_walkEntries rest)

end

namespace Info

/-- The offset after a file, in the form of the dictionary. -/
def advance (info : Info) (offset length : Int64) : Int64 :=
  if info.metaVersion = 2 then
    alignedOffset info.pieceLength offset length
  else
    offset + length

end Info

theorem laidOut_filesOf {entries : List (List UInt8 × Value)} {raw : Option (List UInt8)}
    {single : Bool} (parsed : filesOf entries raw = .ok (files, single)) :
    Exists fun stop => LaidOut (fun offset length => if intAt entries "meta version" = 2 then
      alignedOffset (intAt entries "piece length") offset length else
      offset + length) 0 files stop := by
  unfold filesOf at parsed
  split at parsed
  next version =>
    simp only [version, if_true]
    split at parsed
    · cases parsed
      exact ⟨0, rfl⟩
    split at parsed
    · cases parsed
    rw [parseFileTree] at parsed
    split at parsed
    · cases parsed
    rename_i found walk
    cases parsed
    split at walk
    · cases walk
    next stop walked =>
      cases walk
      exact ⟨stop, laidOut_walkFileTree walked⟩
  next version =>
    simp only [version, if_false]
    split at parsed
    · rw [parseV1Files] at parsed
      split at parsed
      · cases parsed
      rename_i listed walk
      cases parsed
      split at walk
      · cases walk
      · exact laidOut_v1Files walk
    · cases parsed
      exact ⟨_, rfl, rfl⟩

/-- What an accepted info dictionary gives: files laid out from zero on, and a piece
length that is not negative. -/
theorem laidOut_parseInfo {data : List UInt8} {info : Info} (parsed : parseInfo data = .ok info) :
    0 <= info.pieceLength.toInt /\ Exists fun stop => LaidOut info.advance 0 info.files stop := by
  rw [parseInfo] at parsed
  split at parsed
  · cases parsed
  split at parsed
  · cases parsed
  rcases error_else_eq_ok.mp parsed with ⟨nonneg, parsed⟩
  rcases error_else_eq_ok.mp parsed with ⟨_, parsed⟩
  split at parsed
  · cases parsed
  split at parsed
  · cases parsed
  rename_i files single listed
  cases parsed
  refine ⟨?_, laidOut_filesOf listed⟩
  rw [Int64.lt_iff_toInt_lt] at nonneg
  exact Int.not_lt.mp nonneg

/-! ## The sums without a bound -/

def FitsI64 (number : Int) : Prop :=
  -2 ^ 63 <= number /\ number < 2 ^ 63

namespace Info

def lengths (info : Info) : List Int :=
  info.files.map (fun file => file.length.toInt)

/-- The space that a file takes: whole pieces in a version 2 torrent. -/
def padded (info : Info) (length : Int) : Int :=
  if info.metaVersion = 2 /\ 0 < info.pieceLength.toInt then
    (length + info.pieceLength.toInt - 1).tdiv info.pieceLength.toInt * info.pieceLength.toInt
  else
    length

/-- The numbers that the parser computes for a file at an offset. -/
def offsetSums (info : Info) (offset length : Int) : List Int :=
  if info.metaVersion = 2 /\ 0 < info.pieceLength.toInt then
    [length + info.pieceLength.toInt, length + info.pieceLength.toInt - 1, info.padded length,
      offset + info.padded length]
  else
    [offset + length]

/-- No sum leaves the numbers of 64 bits: neither the offsets of the parser, nor the sums of
the lengths in `total_length` and in the offsets of the storage, nor the number of pieces. -/
structure NoOverflow (info : Info) : Prop where
  offsets : ∀ before length after, info.lengths = before ++ length :: after ->
    ∀ sum ∈ info.offsetSums (placedAt info.padded before) length, FitsI64 sum
  totals : ∀ before after, info.lengths = before ++ after -> FitsI64 before.sum
  pieces : 0 < info.pieceLength.toInt -> 0 < info.lengths.sum ->
    FitsI64 (info.lengths.sum + info.pieceLength.toInt)

end Info

theorem toInt_add_of_fits (fits : FitsI64 (first.toInt + second.toInt)) :
    (first + second).toInt = first.toInt + second.toInt := by
  rcases fits with ⟨_, _⟩
  rw [Int64.toInt_add, Int.bmod_eq_of_le]
  · omega
  · omega

theorem toInt_sub_of_fits (fits : FitsI64 (first.toInt - second.toInt)) :
    (first - second).toInt = first.toInt - second.toInt := by
  rcases fits with ⟨_, _⟩
  rw [Int64.toInt_sub, Int.bmod_eq_of_le]
  · omega
  · omega

theorem toInt_mul_of_fits (fits : FitsI64 (first.toInt * second.toInt)) :
    (first * second).toInt = first.toInt * second.toInt := by
  rcases fits with ⟨_, _⟩
  rw [Int64.toInt_mul, Int.bmod_eq_of_le]
  · omega
  · omega

theorem toInt_div_of_pos (positive : 0 < second.toInt) :
    (first / second).toInt = first.toInt.tdiv second.toInt := by
  apply Int64.toInt_div_of_ne_right
  intro minusOne
  rw [minusOne] at positive
  exact absurd positive (by decide)

theorem toInt_one : (1 : Int64).toInt = 1 := by decide

namespace Info

section
variable {info : Info}

/-- The offset that the parser computes is the exact one where nothing overflows. -/
theorem toInt_advance {offset length : Int64}
    (fits : ∀ sum ∈ info.offsetSums offset.toInt length.toInt, FitsI64 sum) :
    (info.advance offset length).toInt = offset.toInt + info.padded length.toInt := by
  have plain : (¬ (info.metaVersion = 2 /\ 0 < info.pieceLength.toInt)) ->
      (offset + length).toInt = offset.toInt + info.padded length.toInt := by
    intro other
    rw [padded, if_neg other]
    apply toInt_add_of_fits
    apply fits
    rw [offsetSums, if_neg other]
    exact mem_singleton.mpr rfl
  rw [advance]
  split
  case isFalse other => exact plain (fun both => other both.1)
  next version =>
    rw [alignedOffset]
    split
    case isFalse notPositive =>
      apply plain
      rintro ⟨-, positive⟩
      exact notPositive (Int64.lt_iff_toInt_lt.mpr positive)
    next positive =>
      have positive' : 0 < info.pieceLength.toInt := Int64.lt_iff_toInt_lt.mp positive
      rw [offsetSums, if_pos ⟨version, positive'⟩] at fits
      have added := toInt_add_of_fits (fits (length.toInt + info.pieceLength.toInt) (by simp))
      have less : (length + info.pieceLength - 1).toInt = length.toInt + info.pieceLength.toInt - 1 := by
        have fits' := fits (length.toInt + info.pieceLength.toInt - 1) (by simp)
        rw [<- added] at fits'
        rw [toInt_sub_of_fits fits', added, toInt_one]
      have whole : info.padded length.toInt =
          (length.toInt + info.pieceLength.toInt - 1).tdiv info.pieceLength.toInt *
            info.pieceLength.toInt := by
        rw [padded, if_pos ⟨version, positive'⟩]
      have divided : ((length + info.pieceLength - 1) / info.pieceLength).toInt =
          (length.toInt + info.pieceLength.toInt - 1).tdiv info.pieceLength.toInt := by
        rw [toInt_div_of_pos positive', less]
      have product : ((length + info.pieceLength - 1) / info.pieceLength *
          info.pieceLength).toInt = info.padded length.toInt := by
        rw [whole, <- divided]
        apply toInt_mul_of_fits
        rw [divided, <- whole]
        exact fits _ (by simp)
      rw [<- product]
      apply toInt_add_of_fits
      rw [product]
      exact fits _ (by simp)

variable (exact' : info.NoOverflow)
include exact'

theorem NoOverflow.toInt_torrentOffset {done : List Int} {start : Int64}
    (laid : LaidOut info.advance start files stop) (placed : start.toInt = placedAt info.padded done)
    (whole : info.lengths = done ++ files.map (fun file => file.length.toInt))
    {file : FileInfo} (shape : files = before ++ file :: after) : file.torrentOffset.toInt =
    placedAt info.padded (done ++ before.map (fun file => file.length.toInt)) := by
  induction before generalizing files done start with
  | nil =>
    rw [shape] at laid
    rw [laid.1, placed, map_nil, append_nil]
  | cons first before ih =>
    rw [shape] at laid whole
    have here : info.lengths = done ++ first.length.toInt ::
        (before ++ file :: after).map (fun file => file.length.toInt) := whole
    have next : (info.advance start first.length).toInt =
        placedAt info.padded (done ++ [first.length.toInt]) := by
      rw [placedAt_append, placedAt_singleton, toInt_advance, placed]
      rw [placed]
      exact exact'.offsets _ _ _ here
    have regrouped : info.lengths = (done ++ [first.length.toInt]) ++
        (before ++ file :: after).map (fun file => file.length.toInt) := by
      rw [here, append_assoc, singleton_append]
    have rest := ih laid.2 next regrouped rfl
    rw [rest, map_cons, append_assoc, singleton_append]

theorem NoOverflow.toInt_foldl {done : List Int} {total : Int64} (summed : total.toInt = done.sum)
    (whole : info.lengths = done ++ files.map (fun file => file.length.toInt)) :
    (files.foldl (fun total file => total + file.length) total).toInt = info.lengths.sum := by
  induction files generalizing done total with
  | nil => rw [foldl_nil, whole, map_nil, append_nil, summed]
  | cons file files ih =>
    have here : info.lengths =
        (done ++ [file.length.toInt]) ++ files.map (fun file => file.length.toInt) := by
      rw [whole, map_cons, append_assoc, singleton_append]
    have sum : (done ++ [file.length.toInt]).sum = total.toInt + file.length.toInt := by
      rw [sum_append, sum_singleton, summed]
    have fits := exact'.totals _ _ here
    rw [sum] at fits
    exact ih (by rw [toInt_add_of_fits fits, sum]) here

theorem NoOverflow.toInt_totalLength : info.totalLength.toInt = info.lengths.sum := by
  have zero : (0 : Int64).toInt = ([] : List Int).sum := by decide
  exact exact'.toInt_foldl zero rfl

theorem NoOverflow.numPieces_eq
    (positive : 0 < info.pieceLength.toInt) (some : 0 < info.lengths.sum) : (info.numPieces : Int) =
    (info.lengths.sum + info.pieceLength.toInt - 1) / info.pieceLength.toInt % 2 ^ 32 := by
  have total := exact'.toInt_totalLength
  have fits := exact'.pieces positive some
  have notSmall : ¬ (info.pieceLength <= 0 \/ info.totalLength <= 0) := by
    rw [Int64.le_iff_toInt_le, Int64.le_iff_toInt_le]
    have zero : (0 : Int64).toInt = 0 := by decide
    omega
  have added : (info.totalLength + info.pieceLength).toInt = info.lengths.sum + info.pieceLength.toInt := by
    rw [<- total] at fits ⊢
    exact toInt_add_of_fits fits
  have less : (info.totalLength + info.pieceLength - 1).toInt =
      info.lengths.sum + info.pieceLength.toInt - 1 := by
    have fits' : FitsI64 ((info.totalLength + info.pieceLength).toInt - (1 : Int64).toInt) := by
      rw [toInt_one]
      rcases fits with ⟨_, _⟩
      exact ⟨by omega, by omega⟩
    rw [toInt_sub_of_fits fits', added, toInt_one]
  rw [numPieces, if_neg notSmall, toInt_div_of_pos positive, less, Int.tdiv_eq_ediv_of_nonneg (by omega)]
  exact Int.toNat_of_nonneg (Int.emod_nonneg _ (by decide))

end

theorem numPieces_lt (info : Info) : info.numPieces < 2 ^ 32 := by
  rw [numPieces]
  split
  · decide
  · omega

end Info

/-! ## Layouts that hold their files -/

namespace Info

/-- What the rest of the engine relies on: the files are apart from each other and inside
the torrent, the pieces cover them, and no sum overflows. -/
structure SoundLayout (info : Info) : Prop where
  nonneg : ∀ file ∈ info.files, 0 <= file.length.toInt
  apart : ∀ before first second after, info.files = before ++ first :: second :: after ->
    first.torrentOffset.toInt + first.length.toInt <= second.torrentOffset.toInt
  inside : ∀ file ∈ info.files, ∀ position : Int, file.torrentOffset.toInt <= position ->
    position < file.torrentOffset.toInt + file.length.toInt ->
    0 <= position /\ position < info.totalLength.toInt
  covered : ∀ file ∈ info.files, ∀ position : Int, file.torrentOffset.toInt <= position ->
    position < file.torrentOffset.toInt + file.length.toInt ->
    position < info.numPieces * info.pieceLength.toInt
  noOverflow : info.NoOverflow

/-- Lengths for which the layout is sound.  The parser accepts others: it checks neither the
sign of a length nor the size of the sum, and the offsets of a version 2 torrent are aligned
while the sum of the lengths is not. -/
structure SafeLengths (info : Info) : Prop where
  nonneg : ∀ file ∈ info.files, 0 <= file.length.toInt
  bounded : info.lengths.sum = 0 ∨ 0 < info.pieceLength.toInt /\
    info.lengths.sum <= (2 ^ 32 - 1) * info.pieceLength.toInt /\
    info.lengths.sum + info.pieceLength.toInt < 2 ^ 63
  aligned : info.metaVersion = 2 -> info.files.Pairwise (fun earlier later =>
    0 < later.length.toInt -> info.pieceLength.toInt ∣ earlier.length.toInt)

section
variable {info : Info}
variable {length : Int}

theorem padded_bounds (whole : 0 <= info.pieceLength.toInt) (nonneg : 0 <= length) :
    length <= info.padded length /\ info.padded length <= length + info.pieceLength.toInt := by
  rw [padded]
  split
  case isFalse => omega
  next both =>
    rw [Int.tdiv_eq_ediv_of_nonneg (by omega)]
    have split' := Int.ediv_mul_add_emod (length + info.pieceLength.toInt - 1) info.pieceLength.toInt
    have lower := Int.emod_nonneg (length + info.pieceLength.toInt - 1)
      (show info.pieceLength.toInt ≠ 0 by omega)
    have upper := Int.emod_lt_of_pos (length + info.pieceLength.toInt - 1) both.2
    omega

theorem padded_zero : info.padded 0 = 0 := by
  rw [padded]
  split
  case isFalse => rfl
  · rw [Int.tdiv_eq_ediv_of_nonneg (by omega), Int.ediv_eq_zero_of_lt (by omega) (by omega), zero_mul]

theorem padded_eq_of_dvd (nonneg : 0 <= length)
    (multiple : info.metaVersion = 2 -> info.pieceLength.toInt ∣ length) : info.padded length = length := by
  rw [padded]
  split
  case isFalse => rfl
  next both =>
    rcases multiple both.1 with ⟨count, shape⟩
    have quotient : (length + info.pieceLength.toInt - 1) / info.pieceLength.toInt = count := by
      rw [shape, add_sub_assoc, Int.mul_add_ediv_left _ _ (by omega),
        Int.ediv_eq_zero_of_lt (by omega) (by omega), add_zero]
    rw [Int.tdiv_eq_ediv_of_nonneg (by omega), quotient, shape, mul_comm]

theorem dvd_of_padded_eq (version : info.metaVersion = 2) (positive : 0 < info.pieceLength.toInt)
    (tight : info.padded length = length) : info.pieceLength.toInt ∣ length := by
  rw [padded, if_pos ⟨version, positive⟩] at tight
  rw [<- tight]
  exact Int.dvd_mul_left _ _

theorem nonneg_of_mem_lengths (nonneg : ∀ file ∈ info.files, 0 <= file.length.toInt) :
    ∀ length ∈ info.lengths, 0 <= length := by
  intro length member
  rcases mem_map.mp member with ⟨file, inside, rfl⟩
  exact nonneg file inside

theorem lengths_of_files {file : FileInfo} (shape : info.files = before ++ file :: after) :
    info.lengths = before.map (fun file => file.length.toInt) ++
    file.length.toInt :: after.map (fun file => file.length.toInt) := by
  rw [lengths, shape, map_append, map_cons]

/-- The first file is placed at zero, and each at the padded sum of those before it. -/
theorem toInt_torrentOffset_of_parsed (laid : LaidOut info.advance 0 info.files stop)
    (exact' : info.NoOverflow) {file : FileInfo} (shape : info.files = before ++ file :: after) :
    file.torrentOffset.toInt = placedAt info.padded (before.map (fun file => file.length.toInt)) := by
  have start : (0 : Int64).toInt = placedAt info.padded [] := by
    rw [placedAt, map_nil]
    decide
  exact exact'.toInt_torrentOffset laid start rfl shape

section
variable (safe : info.SafeLengths)
include safe

theorem SafeLengths.paddedLast : PaddedLast info.padded info.lengths := by
  rw [PaddedLast, lengths, pairwise_map]
  by_cases version : info.metaVersion = 2
  · refine (safe.aligned version).imp_of_mem ?_
    intro earlier later member _ multiple positive
    exact padded_eq_of_dvd (safe.nonneg earlier member) fun _ => multiple positive
  · refine pairwise_of_forall_mem_list ?_
    intro earlier member _ _ _
    exact padded_eq_of_dvd (safe.nonneg earlier member) fun two => absurd two version

theorem SafeLengths.sum_add_lt : info.lengths.sum + info.pieceLength.toInt < 2 ^ 63 := by
  rcases safe.bounded with none | ⟨-, -, fits⟩
  · rw [none]
    have upper := Int64.toInt_lt info.pieceLength
    omega
  · exact fits

theorem SafeLengths.noOverflow (whole : 0 <= info.pieceLength.toInt) : info.NoOverflow := by
  have nonneg := nonneg_of_mem_lengths safe.nonneg
  have fits := safe.sum_add_lt
  refine ⟨?_, ?_, ?_⟩
  · intro before length after shape sum member
    have last := safe.paddedLast
    rw [shape] at last nonneg fits
    have own : 0 <= length := nonneg length (by simp)
    have bounds := padded_bounds whole own
    have regrouped : before ++ length :: after = (before ++ [length]) ++ after := by simp
    rw [regrouped] at last nonneg fits
    have earlier : ∀ item ∈ before, 0 <= item :=
      fun item inside => nonneg item (by simp [inside])
    have later : ∀ item ∈ after, 0 <= item :=
      fun item inside => nonneg item (by simp [inside])
    have placed : placedAt info.padded (before ++ [length]) <=
        (before ++ [length]).sum + info.pieceLength.toInt :=
      last.placedAt_le padded_zero (fun item own => (padded_bounds whole own).2) whole nonneg
    have start := sum_le_placedAt (fun item own => (padded_bounds whole own).1) earlier
    have first := sum_nonneg earlier
    have rest := sum_nonneg later
    rw [placedAt_append, placedAt_singleton, sum_append, sum_singleton] at placed
    rw [sum_append, sum_append, sum_singleton] at fits
    rw [offsetSums] at member
    split at member
    · simp only [mem_cons, not_mem_nil, or_false] at member
      rcases member with _ | _ | _ | _
      · exact ⟨by omega, by omega⟩
      · exact ⟨by omega, by omega⟩
      · exact ⟨by omega, by omega⟩
      · exact ⟨by omega, by omega⟩
    · rw [mem_singleton] at member
      exact ⟨by omega, by omega⟩
  · intro before after shape
    rw [shape] at nonneg fits
    have first := sum_nonneg (fun item inside => nonneg item (mem_append_left after inside))
    have rest := sum_nonneg (fun item inside => nonneg item (mem_append_right before inside))
    rw [sum_append] at fits
    exact ⟨by omega, by omega⟩
  · intro positive some
    exact ⟨by omega, fits⟩

theorem SafeLengths.end_le_sum {before after : List Int}
    (shape : info.lengths = before ++ length :: after) (positive : 0 < length) :
    0 <= placedAt info.padded before /\ placedAt info.padded before + length <= info.lengths.sum := by
  have nonneg := nonneg_of_mem_lengths safe.nonneg
  have last := safe.paddedLast
  rw [shape] at last nonneg ⊢
  have first := sum_nonneg (fun item inside => nonneg item (mem_append_left _ inside))
  have rest := sum_nonneg (fun item inside =>
    nonneg item (mem_append_right before (mem_cons_of_mem length inside)))
  rw [last.placedAt_eq_sum positive, sum_append, sum_cons]
  omega

theorem SafeLengths.sum_le_pieces (exact' : info.NoOverflow) (some : 0 < info.lengths.sum) :
    info.lengths.sum <= info.numPieces * info.pieceLength.toInt := by
  rcases safe.bounded with _ | ⟨positive, _, -⟩
  · omega
  have count : (info.lengths.sum + info.pieceLength.toInt - 1) / info.pieceLength.toInt < 2 ^ 32 := by
    apply Int.ediv_lt_of_lt_mul positive
    omega
  have lower : 0 <= (info.lengths.sum + info.pieceLength.toInt - 1) / info.pieceLength.toInt :=
    Int.ediv_nonneg (by omega) (by omega)
  rw [exact'.numPieces_eq positive some, Int.emod_eq_of_lt lower count]
  have split' := Int.ediv_mul_add_emod (info.lengths.sum + info.pieceLength.toInt - 1) info.pieceLength.toInt
  have upper := Int.emod_lt_of_pos (info.lengths.sum + info.pieceLength.toInt - 1) positive
  omega

theorem SafeLengths.soundLayout (whole : 0 <= info.pieceLength.toInt)
    (laid : LaidOut info.advance 0 info.files stop) : info.SoundLayout := by
  have exact' := safe.noOverflow whole
  have total := exact'.toInt_totalLength
  -- A file with a byte in it, at its exact place.
  have placed : ∀ file ∈ info.files, ∀ position : Int, file.torrentOffset.toInt <= position ->
      position < file.torrentOffset.toInt + file.length.toInt ->
      0 <= position /\ position < info.lengths.sum := by
    intro file member position start stop
    rcases append_of_mem member with ⟨_, _, shape⟩
    have offset := toInt_torrentOffset_of_parsed laid exact' shape
    have inside := safe.end_le_sum (lengths_of_files shape) (by omega)
    omega
  refine ⟨safe.nonneg, ?_, ?_, ?_, exact'⟩
  · intro before first second after shape
    have here := toInt_torrentOffset_of_parsed laid exact' shape
    have regrouped : info.files = (before ++ [first]) ++ second :: after := by
      rw [shape, append_assoc, singleton_append]
    have next := toInt_torrentOffset_of_parsed laid exact' regrouped
    have own := safe.nonneg first (by rw [shape]; simp)
    have grows := (padded_bounds whole own).1
    rw [map_append, placedAt_append, map_singleton, placedAt_singleton] at next
    omega
  · intro file member position start stop
    rw [total]
    exact placed file member position start stop
  · intro file member position start stop
    have inside := placed file member position start stop
    have covers := safe.sum_le_pieces exact' (by omega)
    omega

end

theorem SoundLayout.safeLengths (sound : info.SoundLayout) (whole : 0 <= info.pieceLength.toInt)
    (laid : LaidOut info.advance 0 info.files stop) : info.SafeLengths := by
  have exact' := sound.noOverflow
  have nonneg := nonneg_of_mem_lengths sound.nonneg
  have grows : ∀ item, 0 <= item -> item <= info.padded item :=
    fun item own => (padded_bounds whole own).1
  by_cases some : 0 < info.lengths.sum
  case neg =>
    have none : info.lengths.sum = 0 := by
      have lower := sum_nonneg nonneg
      omega
    refine ⟨sound.nonneg, Or.inl none, ?_⟩
    intro _
    refine pairwise_of_forall_mem_list ?_
    intro _ _ later member positive
    have small := single_le_sum nonneg later.length.toInt (mem_map.mpr ⟨later, member, rfl⟩)
    omega
  case pos =>
    rcases exists_last_positive nonneg some with ⟨before, length, after, shape, _, empty⟩
    rcases map_eq_append_iff.mp shape with ⟨first, _, files, mapped, tail⟩
    rcases map_eq_cons_iff.mp tail with ⟨file, _, restShape, _, _⟩
    rw [restShape] at files
    have offset := toInt_torrentOffset_of_parsed laid exact' files
    rw [mapped] at offset
    have member : file ∈ info.files := by
      rw [files]
      simp
    have sum : info.lengths.sum = before.sum + length + after.sum := by
      rw [shape, sum_append, sum_cons]
      omega
    have afterSum : after.sum = 0 := by
      apply sum_eq_zero
      intro item inside
      have lower : 0 <= item := nonneg item (by rw [shape]; simp [inside])
      have upper := empty item inside
      omega
    have earlier : ∀ item ∈ before, 0 <= item := by
      intro item inside
      apply nonneg
      rw [shape]
      exact mem_append_left _ inside
    have atLeast := sum_le_placedAt grows earlier
    have covered := sound.covered file member (file.torrentOffset.toInt + file.length.toInt - 1)
      (by omega) (by omega)
    have inside := sound.inside file member (file.torrentOffset.toInt + file.length.toInt - 1)
      (by omega) (by omega)
    rw [exact'.toInt_totalLength] at inside
    have pieces : 0 < info.pieceLength.toInt := by
      rcases Int.lt_or_eq_of_le whole with ready | none
      · exact ready
      rw [<- none, mul_zero] at covered
      omega
    refine ⟨sound.nonneg, Or.inr ⟨pieces, ?_, (exact'.pieces pieces some).2⟩, ?_⟩
    · have few : (info.numPieces : Int) <= 2 ^ 32 - 1 := by
        have bound := info.numPieces_lt
        omega
      have scaled := Int.mul_le_mul_of_nonneg_right few whole
      omega
    · intro version
      have last : PaddedLast info.padded info.lengths := by
        rw [shape]
        exact paddedLast_of_placedAt_le grows earlier empty (by omega)
      rw [PaddedLast, lengths, pairwise_map] at last
      refine last.imp ?_
      intro first second tight full
      exact dvd_of_padded_eq version pieces (tight full)

end
end Info

/-- For an accepted info dictionary the layout is sound exactly for safe lengths. -/
theorem soundLayout_iff_safeLengths (data : List UInt8) (info : Info)
    (parsed : parseInfo data = .ok info) : info.SoundLayout <-> info.SafeLengths := by
  rcases laidOut_parseInfo parsed with ⟨whole, _, laid⟩
  constructor
  · intro sound
    exact sound.safeLengths whole laid
  · intro safe
    exact safe.soundLayout whole laid

/-- An info dictionary with nothing but a piece length, a version and files. -/
def Info.ofFiles (pieceLength metaVersion : Int64) (files : List FileInfo) (single : Bool)
    (fileTreeRaw : Option (List UInt8)) : Info where
  name := []
  pieceLength := pieceLength
  pieces := []
  files := files
  singleFile := single
  isPrivate := none
  source := []
  metaVersion := metaVersion
  fileTreeRaw := fileTreeRaw

/-- Two files of five and three bytes in pieces of four. -/
def twoFiles : Info :=
  .ofFiles 4 0 [⟨[ascii "a"], 5, 0, [], none⟩, ⟨[ascii "b"], 3, 5, [], none⟩] false none

theorem soundLayout_two_files : parseInfo (ascii
      "d5:filesld6:lengthi5e4:pathl1:aeed6:lengthi3e4:pathl1:beee12:piece lengthi4ee") = .ok twoFiles ∧
    twoFiles.SoundLayout := by
  refine ⟨?parsed, (soundLayout_iff_safeLengths _ _ ?parsed).mpr ⟨?_, Or.inr (by decide), ?_⟩⟩
  · decide +kernel
  · intro file member
    rcases mem_cons.mp member with rfl | second
    · decide
    · rw [mem_singleton.mp second]
      decide
  · intro version
    exact absurd version (by decide)

/-- The parser accepts a file of length minus one, and a version 2 torrent of two files of
one byte in pieces of four, whose second file lies behind the end of the torrent. -/
theorem unsoundLayout_accepted : let negative := Info.ofFiles 4 0 [⟨[], -1, 0, [], none⟩] true none
    let tree := ascii "d1:ad0:d6:lengthi1eee1:bd0:d6:lengthi1eeee"
    let unaligned := Info.ofFiles 4 2
      [⟨[ascii "a"], 1, 0, [], none⟩, ⟨[ascii "b"], 1, 4, [], none⟩] false (some tree)
    (parseInfo (ascii "d6:lengthi-1e12:piece lengthi4ee") = .ok negative ∧ ¬ negative.SoundLayout) ∧
    parseInfo (ascii "d9:file tree" ++ tree ++ ascii "12:meta versioni2e12:piece lengthi4ee") =
      .ok unaligned ∧ ¬ unaligned.SoundLayout := by
  refine ⟨⟨by decide +kernel, ?_⟩, by decide +kernel, ?_⟩
  · intro sound
    exact absurd (sound.nonneg _ (mem_singleton.mpr rfl)) (by decide)
  · intro sound
    have second := sound.inside _ (mem_cons_of_mem _ (mem_singleton.mpr rfl)) 4 (by decide) (by decide)
    exact absurd second.2 (by decide)

end TorrentPlayer.Meta
