import Mathlib.Data.Nat.Digits.Lemmas
import Mathlib.Data.List.TakeWhile
import Mathlib.Tactic.Ring

namespace TorrentPlayer.Library

open List

/-!
# Decimal numerals

Numbers written in ASCII digits.  `decimal` is the one numeral of a number without
a leading zero, and every numeral of that form is read back to the number it spells.
-/

/-- The ASCII digits `0` to `9`. -/
def isDigit (byte : UInt8) : Bool :=
  decide (48 <= byte) && decide (byte <= 57)

def digitValue (byte : UInt8) : Nat :=
  byte.toNat - 48

def digitByte (digit : Nat) : UInt8 :=
  UInt8.ofNat (48 + digit)

/-- The number that a string of digits spells, read from the left. -/
def numeralValue (digits : List UInt8) : Nat :=
  digits.foldl (fun value byte => value * 10 + digitValue byte) 0

/-- The digits of a number, without a leading zero. -/
def decimal (value : Nat) : List UInt8 :=
  if value = 0 then [digitByte 0] else (Nat.digits 10 value).reverse.map digitByte

/-- A non-empty string of digits that starts with `0` only when it is `0`. -/
structure IsNumeral (digits : List UInt8) : Prop where
  nonempty : digits ≠ []
  digit : ∀ byte ∈ digits, isDigit byte = true
  noLeadingZero : digits.head? = some (digitByte 0) -> digits = [digitByte 0]

theorem isDigit_iff (byte : UInt8) : isDigit byte = true <-> 48 <= byte.toNat /\ byte.toNat <= 57 := by
  simp [isDigit, UInt8.le_iff_toNat_le]

variable (value : Nat) (digits : List UInt8) {byte : UInt8} {digit : Nat}

theorem toNat_digitByte (small : digit < 10) : (digitByte digit).toNat = 48 + digit := by
  rw [digitByte, UInt8.toNat_ofNat']
  omega

theorem isDigit_digitByte (small : digit < 10) : isDigit (digitByte digit) = true := by
  rw [isDigit_iff, toNat_digitByte small]
  omega

theorem digitValue_digitByte (small : digit < 10) : digitValue (digitByte digit) = digit := by
  rw [digitValue, toNat_digitByte small]
  omega

theorem digitByte_digitValue (digit : isDigit byte = true) : digitByte (digitValue byte) = byte := by
  have bounds := (isDigit_iff byte).mp digit
  apply UInt8.toNat.inj
  rw [toNat_digitByte (by rw [digitValue]; omega), digitValue]
  omega

theorem digitValue_lt (digit : isDigit byte = true) : digitValue byte < 10 := by
  have bounds := (isDigit_iff byte).mp digit
  rw [digitValue]
  omega

theorem numeralValue_eq_ofDigits : numeralValue digits = Nat.ofDigits 10 (digits.reverse.map digitValue) := by
  rw [numeralValue, foldl_eq_foldr_reverse, Nat.ofDigits_eq_foldr, foldr_map]
  congr 1
  funext byte value
  simp only [Nat.cast_id]
  ring

/-- Reading from the left, a digit more multiplies by ten. -/
theorem foldl_numeral (start : Nat) : digits.foldl (fun value byte => value * 10 + digitValue byte) start =
    start * 10 ^ digits.length + numeralValue digits := by
  induction digits generalizing start with
  | nil => simp [numeralValue]
  | cons byte digits ih =>
    have tail := ih (0 * 10 + digitValue byte)
    rw [numeralValue, foldl_cons, foldl_cons, ih, tail, length_cons]
    ring

theorem isNumeral_zero : IsNumeral [digitByte 0] where
  nonempty := by simp
  digit := by
    intro byte member
    rw [mem_singleton.mp member]
    exact isDigit_digitByte (by decide)
  noLeadingZero := by
    intro _
    rfl

theorem isNumeral_decimal : IsNumeral (decimal value) := by
  rw [decimal]
  split
  · exact isNumeral_zero
  rename_i positive
  have shape : Nat.digits 10 value ≠ [] := Nat.digits_ne_nil_iff_ne_zero.mpr positive
  refine ⟨by simpa using shape, ?_, ?_⟩
  · intro byte member
    rcases mem_map.mp member with ⟨digit, inside, rfl⟩
    exact isDigit_digitByte (Nat.digits_lt_base (by decide) (mem_reverse.mp inside))
  · intro first
    rw [head?_map, head?_reverse, getLast?_eq_some_getLast shape] at first
    have last : digitByte ((Nat.digits 10 value).getLast shape) = digitByte 0 := by simpa using first
    have small : (Nat.digits 10 value).getLast shape < 10 :=
      Nat.digits_lt_base (by decide) (getLast_mem shape)
    have digits := congrArg digitValue last
    rw [digitValue_digitByte small] at digits
    exact absurd digits (Nat.getLast_digit_ne_zero 10 positive)

theorem numeralValue_decimal : numeralValue (decimal value) = value := by
  rw [decimal]
  split
  next zero =>
    rw [zero]
    decide
  · rw [numeralValue_eq_ofDigits, <- map_reverse, reverse_reverse, map_map]
    have same : (Nat.digits 10 value).map (digitValue ∘ digitByte) = Nat.digits 10 value := by
      refine Eq.trans (map_congr_left ?_) (map_id _)
      intro digit inside
      exact digitValue_digitByte (Nat.digits_lt_base (by decide) inside)
    rw [same, Nat.ofDigits_digits]

theorem decimal_numeralValue {digits : List UInt8} (numeral : IsNumeral digits) :
    decimal (numeralValue digits) = digits := by
  by_cases zero : digits = [digitByte 0]
  · rw [zero]
    decide
  have small : ∀ digit ∈ digits.reverse.map digitValue, digit < 10 := by
    intro digit member
    rcases mem_map.mp member with ⟨byte, inside, read⟩
    rw [<- read]
    exact digitValue_lt (numeral.digit byte (mem_reverse.mp inside))
  have leading : ∀ shape : digits.reverse.map digitValue ≠ [],
      (digits.reverse.map digitValue).getLast shape ≠ 0 := by
    intro shape value
    rw [getLast_map, getLast_reverse] at value
    have inside : digits.head numeral.nonempty ∈ digits := head_mem numeral.nonempty
    apply zero
    apply numeral.noLeadingZero
    rw [head?_eq_some_head numeral.nonempty, <- digitByte_digitValue (numeral.digit _ inside), value]
  have read : Nat.digits 10 (numeralValue digits) = digits.reverse.map digitValue := by
    rw [numeralValue_eq_ofDigits]
    exact Nat.digits_ofDigits 10 (by decide) _ small leading
  have positive : numeralValue digits ≠ 0 := by
    intro none
    rw [none] at read
    exact numeral.nonempty (by simpa using read.symm)
  rw [decimal, if_neg positive, read, <- map_reverse, reverse_reverse, map_map]
  refine Eq.trans (map_congr_left ?_) (map_id _)
  intro byte inside
  exact digitByte_digitValue (numeral.digit byte inside)

end TorrentPlayer.Library
