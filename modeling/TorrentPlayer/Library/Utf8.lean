import Mathlib.Data.List.Basic
import Mathlib.Data.List.Forall2
import Mathlib.Data.List.TakeWhile
import Mathlib.Tactic.Ring

namespace TorrentPlayer.Library

open List

/-!
# UTF-8 texts

The lossy reading of bytes as UTF-8, in which each sequence that breaks off becomes one
replacement character.  Its result is always UTF-8, and it leaves UTF-8 as it is.
-/

/-- The ranges of the bytes after a first byte, or nothing for a byte that starts no
sequence. -/
def sequenceTail (first : UInt8) : Option (List (Nat × Nat)) :=
  if first.toNat <= 0x7F then some []
  else if 0xC2 <= first.toNat /\ first.toNat <= 0xDF then some [(0x80, 0xBF)]
  else if first.toNat = 0xE0 then some [(0xA0, 0xBF), (0x80, 0xBF)]
  else if first.toNat = 0xED then some [(0x80, 0x9F), (0x80, 0xBF)]
  else if 0xE1 <= first.toNat /\ first.toNat <= 0xEF then some [(0x80, 0xBF), (0x80, 0xBF)]
  else if first.toNat = 0xF0 then some [(0x90, 0xBF), (0x80, 0xBF), (0x80, 0xBF)]
  else if first.toNat = 0xF4 then some [(0x80, 0x8F), (0x80, 0xBF), (0x80, 0xBF)]
  else if 0xF1 <= first.toNat /\ first.toNat <= 0xF3 then
    some [(0x80, 0xBF), (0x80, 0xBF), (0x80, 0xBF)]
  else none

/-- How many bytes follow in the wanted ranges, up to the first that does not fit. -/
def continuations : List (Nat × Nat) -> List UInt8 -> Nat
  | [], _ | _ :: _, [] => 0
  | range :: ranges, byte :: rest =>
    if range.1 <= byte.toNat /\ byte.toNat <= range.2 then continuations ranges rest + 1 else 0

/-- The replacement character in UTF-8. -/
def replacement : List UInt8 := [0xEF, 0xBF, 0xBD]

/-- What is written from one first byte on, and how many of the bytes after it are used up. -/
def lossyStep (first : UInt8) (rest : List UInt8) : List UInt8 × Nat :=
  match sequenceTail first with
  | none => (replacement, 0)
  | some ranges =>
    if continuations ranges rest = ranges.length then
      (first :: rest.take ranges.length, ranges.length)
    else
      (replacement, continuations ranges rest)

/-- The steps from byte to byte.  Each uses up a byte, so that the length is enough fuel. -/
def lossyLoop : Nat -> List UInt8 -> List UInt8
  | 0, _ | _ + 1, [] => []
  | fuel + 1, first :: rest =>
    (lossyStep first rest).1 ++ lossyLoop fuel (rest.drop (lossyStep first rest).2)

def fromUtf8Lossy (bytes : List UInt8) : List UInt8 :=
  lossyLoop bytes.length bytes

def utf8Bytes (characters : List Char) : List UInt8 :=
  characters.flatMap String.utf8EncodeChar

def IsUtf8 (bytes : List UInt8) : Prop :=
  Exists fun characters => bytes = utf8Bytes characters

structure Text where
  bytes : List UInt8
  utf8 : IsUtf8 bytes

instance : DecidableEq Text := fun first second =>
  decidable_of_iff (first.bytes = second.bytes) (by
    cases first
    cases second
    simp)

/-! ## Characters and their sequences -/

def InRanges (ranges : List (Nat × Nat)) (bytes : List UInt8) : Prop :=
  List.Forall₂ (fun range byte => range.1 <= byte.toNat /\ byte.toNat <= range.2) ranges bytes

variable {ranges : List (Nat × Nat)} {first : UInt8}
variable {second third : UInt8} {value : Nat} {bytes : List UInt8} (character : Char)

theorem continuations_append (fits : InRanges ranges bytes)
    (rest : List UInt8) : continuations ranges (bytes ++ rest) = ranges.length := by
  induction fits with
  | nil => cases rest <;> rfl
  | cons inside _ ih => rw [cons_append, continuations, if_pos inside, ih, length_cons]

theorem inRanges_take {rest : List UInt8} (all : continuations ranges rest = ranges.length) :
    InRanges ranges (rest.take ranges.length) := by
  induction ranges generalizing rest with
  | nil => exact List.Forall₂.nil
  | cons range ranges ih =>
    cases rest with
    | nil => cases all
    | cons =>
      rw [continuations] at all
      split at all
      next inside => exact List.Forall₂.cons inside (ih (Nat.succ.inj all))
      · cases all

theorem toNat_ofNat_of_lt (small : value < 256) : (UInt8.ofNat value).toNat = value := by
  rw [UInt8.toNat_ofNat']
  omega

theorem toNat_val_bounds :
    character.val.toNat < 0xD800 \/ 0xDFFF < character.val.toNat /\ character.val.toNat < 0x110000 :=
  character.valid

theorem inRanges_cons (range : Nat × Nat) {value : Nat} {bytes : List UInt8} (small : value < 256)
    (inside : range.1 <= value /\ value <= range.2) (fits : InRanges ranges bytes) :
    InRanges (range :: ranges) (UInt8.ofNat value :: bytes) := by
  refine List.Forall₂.cons ?_ fits
  rw [toNat_ofNat_of_lt small]
  exact inside

/-- Three bytes: nothing that two could say, and no surrogates. -/
theorem sequenceTail_three (lead : 0xE0 <= first.toNat /\ first.toNat <= 0xEF) :
    sequenceTail first = some [(if first.toNat = 0xE0 then 0xA0 else 0x80,
      if first.toNat = 0xED then 0x9F else 0xBF), (0x80, 0xBF)] := by
  rw [sequenceTail, if_neg (by omega), if_neg (by omega)]
  split_ifs <;> first | rfl | omega

/-- Four bytes: nothing that three could say, and no more than there are characters. -/
theorem sequenceTail_four (lead : 0xF0 <= first.toNat /\ first.toNat <= 0xF4) :
    sequenceTail first = some [(if first.toNat = 0xF0 then 0x90 else 0x80,
      if first.toNat = 0xF4 then 0x8F else 0xBF), (0x80, 0xBF), (0x80, 0xBF)] := by
  rw [sequenceTail, if_neg (by omega), if_neg (by omega), if_neg (by omega), if_neg (by omega),
    if_neg (by omega)]
  split_ifs <;> first | rfl | omega

theorem utf8EncodeChar_eq_cons : Exists fun first => Exists fun tail => Exists fun ranges =>
    String.utf8EncodeChar character = first :: tail /\ sequenceTail first = some ranges /\
      InRanges ranges tail := by
  have valid := toNat_val_bounds character
  rw [String.utf8EncodeChar]
  generalize character.val.toNat = value at valid
  split_ifs with one two three
  · refine ⟨_, [], [], rfl, ?_, List.Forall₂.nil⟩
    rw [sequenceTail, toNat_ofNat_of_lt (by omega), if_pos one]
  · refine ⟨_, _, [(0x80, 0xBF)], rfl, ?_, inRanges_cons _ (by omega) (by omega) .nil⟩
    rw [sequenceTail, toNat_ofNat_of_lt (by omega), if_neg (by omega), if_pos (by omega)]
  · have first : (UInt8.ofNat (value / 4096 % 16 + 224)).toNat = value / 4096 + 224 := by
      rw [toNat_ofNat_of_lt (by omega)]
      omega
    have last : InRanges [(0x80, 0xBF)] [UInt8.ofNat (value % 64 + 128)] :=
      inRanges_cons _ (by omega) (by omega) .nil
    refine ⟨_, _, _, rfl, sequenceTail_three (by omega), inRanges_cons _ (by omega) ?_ last⟩
    constructor <;> split_ifs <;> omega
  · have first : (UInt8.ofNat (value / 262144 % 8 + 240)).toNat = value / 262144 + 240 := by
      rw [toNat_ofNat_of_lt (by omega)]
      omega
    have last : InRanges [(0x80, 0xBF), (0x80, 0xBF)]
        [UInt8.ofNat (value / 64 % 64 + 128), UInt8.ofNat (value % 64 + 128)] :=
      inRanges_cons _ (by omega) (by omega) (inRanges_cons _ (by omega) (by omega) .nil)
    refine ⟨_, _, _, rfl, sequenceTail_four (by omega), inRanges_cons _ (by omega) ?_ last⟩
    constructor <;> split_ifs <;> omega

theorem exists_char (value : Nat) (valid : value < 0xD800 \/ 0xDFFF < value /\ value < 0x110000) :
    Exists fun character : Char => character.val.toNat = value := by
  have number : (UInt32.ofNat value).toNat = value := by
    rw [UInt32.toNat_ofNat']
    omega
  have valid' : (UInt32.ofNat value).isValidChar := by
    rw [UInt32.isValidChar, number]
    exact valid
  exact ⟨⟨UInt32.ofNat value, valid'⟩, number⟩

theorem ofNat_eq_of_toNat (byte : UInt8) (same : value = byte.toNat) : UInt8.ofNat value = byte := by
  rw [same, UInt8.ofNat_toNat]

theorem exists_utf8EncodeChar_one (low : first.toNat <= 0x7F) :
    Exists fun character => String.utf8EncodeChar character = [first] := by
  rcases exists_char first.toNat (by omega) with ⟨character, number⟩
  refine ⟨character, ?_⟩
  rw [String.utf8EncodeChar, number, if_pos low, ofNat_eq_of_toNat first rfl]

theorem exists_utf8EncodeChar_two (low : 0xC2 <= first.toNat /\ first.toNat <= 0xDF)
    (follows : 0x80 <= second.toNat /\ second.toNat <= 0xBF) :
    Exists fun character => String.utf8EncodeChar character = [first, second] := by
  rcases exists_char ((first.toNat - 0xC0) * 64 + (second.toNat - 0x80)) (by omega) with ⟨character, number⟩
  refine ⟨character, ?_⟩
  rw [String.utf8EncodeChar, if_neg (by omega), if_pos (by omega),
    ofNat_eq_of_toNat first (by omega), ofNat_eq_of_toNat second (by omega)]

theorem exists_utf8EncodeChar_three (low : 0xE0 <= first.toNat /\ first.toNat <= 0xEF)
    (follows : 0x80 <= second.toNat /\ second.toNat <= 0xBF)
    (last : 0x80 <= third.toNat /\ third.toNat <= 0xBF)
    (long : first.toNat = 0xE0 -> 0xA0 <= second.toNat)
    (single : first.toNat = 0xED -> second.toNat <= 0x9F) :
    Exists fun character => String.utf8EncodeChar character = [first, second, third] := by
  rcases exists_char ((first.toNat - 0xE0) * 4096 + (second.toNat - 0x80) * 64 +
    (third.toNat - 0x80)) (by omega) with ⟨character, number⟩
  refine ⟨character, ?_⟩
  rw [String.utf8EncodeChar, if_neg (by omega), if_neg (by omega), if_pos (by omega),
    ofNat_eq_of_toNat first (by omega), ofNat_eq_of_toNat second (by omega),
    ofNat_eq_of_toNat third (by omega)]

theorem exists_utf8EncodeChar_four {fourth : UInt8} (low : 0xF0 <= first.toNat /\ first.toNat <= 0xF4)
    (follows : 0x80 <= second.toNat /\ second.toNat <= 0xBF)
    (third' : 0x80 <= third.toNat /\ third.toNat <= 0xBF)
    (last : 0x80 <= fourth.toNat /\ fourth.toNat <= 0xBF)
    (long : first.toNat = 0xF0 -> 0x90 <= second.toNat)
    (bounded : first.toNat = 0xF4 -> second.toNat <= 0x8F) :
    Exists fun character => String.utf8EncodeChar character = [first, second, third, fourth] := by
  rcases exists_char ((first.toNat - 0xF0) * 262144 + (second.toNat - 0x80) * 4096 +
    (third.toNat - 0x80) * 64 + (fourth.toNat - 0x80)) (by omega) with ⟨character, number⟩
  refine ⟨character, ?_⟩
  rw [String.utf8EncodeChar, if_neg (by omega), if_neg (by omega), if_neg (by omega),
    ofNat_eq_of_toNat first (by omega), ofNat_eq_of_toNat second (by omega),
    ofNat_eq_of_toNat third (by omega), ofNat_eq_of_toNat fourth (by omega)]

theorem exists_utf8EncodeChar {tail : List UInt8} (known : sequenceTail first = some ranges)
    (fits : InRanges ranges tail) :
    Exists fun character => String.utf8EncodeChar character = first :: tail := by
  have lead : first.toNat <= 0x7F \/ (0xC2 <= first.toNat /\ first.toNat <= 0xDF) \/
      (0xE0 <= first.toNat /\ first.toNat <= 0xEF) \/ 0xF0 <= first.toNat /\ first.toNat <= 0xF4 := by
    rw [sequenceTail] at known
    split_ifs at known <;> omega
  rcases lead with one | two | three | four
  · rw [sequenceTail, if_pos one] at known
    cases known
    cases fits
    exact exists_utf8EncodeChar_one one
  · rw [sequenceTail, if_neg (by omega), if_pos two] at known
    cases known
    rcases fits with _ | ⟨second, ⟨⟩⟩
    exact exists_utf8EncodeChar_two two second
  · rw [sequenceTail_three three] at known
    cases known
    rcases fits with _ | ⟨second, _ | ⟨third, ⟨⟩⟩⟩
    split_ifs at second <;>
      exact exists_utf8EncodeChar_three three (by omega) third (by omega) (by omega)
  · rw [sequenceTail_four four] at known
    cases known
    rcases fits with _ | ⟨second, _ | ⟨third, _ | ⟨fourth, ⟨⟩⟩⟩⟩
    split_ifs at second <;>
      exact exists_utf8EncodeChar_four four (by omega) third fourth (by omega) (by omega)

/-! ## The lossy reading -/

theorem lossyLoop_utf8Bytes (characters : List Char) {fuel : Nat}
    (enough : (utf8Bytes characters).length <= fuel) :
    lossyLoop fuel (utf8Bytes characters) = utf8Bytes characters := by
  induction characters generalizing fuel with
  | nil => cases fuel <;> rfl
  | cons character characters ih =>
    rcases utf8EncodeChar_eq_cons character with ⟨first, tail, ranges, shape, known, fits⟩
    have bytes : utf8Bytes (character :: characters) = first :: (tail ++ utf8Bytes characters) := by
      rw [utf8Bytes, flatMap_cons, shape]
      rfl
    have long : ranges.length = tail.length := fits.length_eq
    rw [bytes, length_cons, length_append] at enough
    cases fuel with
    | zero => omega
    | succ =>
      rw [bytes, lossyLoop, lossyStep, known]
      dsimp only
      rw [if_pos (continuations_append fits _), long]
      rw [take_left, drop_left, ih (by omega), cons_append]

theorem fromUtf8Lossy_of_isUtf8 (utf8 : IsUtf8 bytes) : fromUtf8Lossy bytes = bytes := by
  rcases utf8 with ⟨characters, shape⟩
  rw [shape]
  exact lossyLoop_utf8Bytes characters (le_refl _)

theorem isUtf8_append {first second : List UInt8} (left : IsUtf8 first) (right : IsUtf8 second) :
    IsUtf8 (first ++ second) := by
  rcases left with ⟨characters, shape⟩
  rcases right with ⟨later, shape'⟩
  refine ⟨characters ++ later, ?_⟩
  rw [shape, shape', utf8Bytes, utf8Bytes, utf8Bytes, flatMap_append]

theorem isUtf8_utf8EncodeChar : IsUtf8 (String.utf8EncodeChar character) := by
  refine ⟨[character], ?_⟩
  rw [utf8Bytes, flatMap_singleton]

theorem isUtf8_replacement : IsUtf8 replacement :=
  isUtf8_utf8EncodeChar (Char.ofNat 0xFFFD)

theorem isUtf8_lossyStep (first : UInt8) (rest : List UInt8) : IsUtf8 (lossyStep first rest).1 := by
  rw [lossyStep]
  split
  · exact isUtf8_replacement
  rename_i ranges known
  split
  case isFalse => exact isUtf8_replacement
  next all =>
    rcases exists_utf8EncodeChar known (inRanges_take all) with ⟨character, shape⟩
    rw [<- shape]
    exact isUtf8_utf8EncodeChar character

/-- Whatever is read becomes a text. -/
theorem isUtf8_fromUtf8Lossy (bytes : List UInt8) : IsUtf8 (fromUtf8Lossy bytes) := by
  rw [fromUtf8Lossy]
  generalize bytes.length = fuel
  induction fuel generalizing bytes with
  | zero => exact ⟨[], rfl⟩
  | succ fuel ih =>
    cases bytes with
    | nil => exact ⟨[], rfl⟩
    | cons first rest => exact isUtf8_append (isUtf8_lossyStep first rest) (ih _)

def Text.lossy (bytes : List UInt8) : Text where
  bytes := fromUtf8Lossy bytes
  utf8 := isUtf8_fromUtf8Lossy bytes

theorem Text.lossy_bytes (text : Text) : Text.lossy text.bytes = text := by
  cases text with
  | mk bytes utf8 =>
    rw [lossy]
    congr 1
    exact fromUtf8Lossy_of_isUtf8 utf8

/-- A replacement is at most three times as long as what it stands for. -/
theorem length_lossyStep_le (first : UInt8) (rest : List UInt8) :
    (lossyStep first rest).1.length <= 3 * ((lossyStep first rest).2 + 1) := by
  rw [lossyStep]
  split
  · exact le_refl _
  split
  case isFalse =>
    rw [replacement]
    dsimp only [length_cons, length_nil]
    omega
  · rw [length_cons, length_take]
    omega

theorem continuations_le (ranges : List (Nat × Nat)) (rest : List UInt8) :
    continuations ranges rest <= rest.length := by
  induction ranges generalizing rest with
  | nil => cases rest <;> exact Nat.zero_le _
  | cons range ranges ih =>
    cases rest with
    | nil => exact Nat.zero_le _
    | cons byte rest =>
      rw [continuations]
      have later := ih rest
      split
      · rw [length_cons]
        omega
      · exact Nat.zero_le _

theorem lossyStep_le (first : UInt8) (rest : List UInt8) : (lossyStep first rest).2 <= rest.length := by
  rw [lossyStep]
  split
  · exact Nat.zero_le _
  rename_i ranges known
  have bound := continuations_le ranges rest
  split
  next all =>
    rw [all] at bound
    exact bound
  · exact bound

theorem length_lossyLoop_le (fuel : Nat) (bytes : List UInt8) :
    (lossyLoop fuel bytes).length <= 3 * bytes.length := by
  induction fuel generalizing bytes with
  | zero => exact Nat.zero_le _
  | succ fuel ih =>
    cases bytes with
    | nil => exact Nat.zero_le _
    | cons first rest =>
      have written := length_lossyStep_le first rest
      have used := lossyStep_le first rest
      have later := ih (rest.drop (lossyStep first rest).2)
      rw [length_drop] at later
      rw [lossyLoop, length_append, length_cons]
      omega

theorem length_fromUtf8Lossy_le (bytes : List UInt8) : (fromUtf8Lossy bytes).length <= 3 * bytes.length :=
  length_lossyLoop_le bytes.length bytes

end TorrentPlayer.Library
