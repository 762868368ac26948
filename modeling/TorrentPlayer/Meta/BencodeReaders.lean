import TorrentPlayer.Library.Guards
import TorrentPlayer.Meta.Bencode

namespace TorrentPlayer.Meta

open Library List Int64

/-!
# Bencode integers and byte strings

The readers of the leaves accept exactly the texts that the encoder writes.
-/

namespace Decoder

/-- From one position of the decoder to another over `text`. -/
structure Reads (decoder : Decoder) (text : List UInt8) (after : Decoder) : Prop where
  rest : decoder.rest = text ++ after.rest
  pos : after.pos = decoder.pos + text.length

variable {text rest digits : List UInt8} {decoder after : Decoder} {start : Nat}

namespace Reads

theorem trans {first second third : Decoder} {later : List UInt8} (reads : Reads first text second)
    (next : Reads second later third) : Reads first (text ++ later) third := by
  refine ⟨?_, ?_⟩
  · rw [reads.rest, next.rest, append_assoc]
  · rw [next.pos, reads.pos, length_append, Nat.add_assoc]

theorem cons {byte : UInt8} (front : decoder.rest = byte :: rest) :
    Reads decoder [byte] ⟨decoder.pos + 1, rest⟩ :=
  ⟨front, rfl⟩

theorem unique {first second : Decoder} (reads : Reads decoder text first)
    (other : Reads decoder text second) : first = second := by
  have rest : first.rest = second.rest :=
    append_cancel_left (reads.rest.symm.trans other.rest)
  have pos : first.pos = second.pos := reads.pos.trans other.pos.symm
  cases first
  cases second
  exact congrArg₂ Decoder.mk pos rest

/-- The end of the input stays where it is. -/
theorem total (reads : Reads decoder text after) :
    after.pos + after.rest.length = decoder.pos + decoder.rest.length := by
  rw [reads.rest, reads.pos, length_append]
  omega

end Reads

/-! ## Integers -/

theorem digitByte_zero : digitByte 0 = '0'.toUInt8 := by decide

/-- The two checks of `parse_int` leave the numerals. -/
theorem isNumeral_of_checks (digit : ∀ byte ∈ digits, isDigit byte = true) (nonempty : digits ≠ [])
    (leading : ¬ (1 < digits.length /\ digits.head? = some '0'.toUInt8)) : IsNumeral digits := by
  refine ⟨nonempty, digit, ?_⟩
  intro first
  cases digits with
  | nil => exact absurd rfl nonempty
  | cons byte digits =>
    cases digits with
    | nil => simpa using first
    | cons => exact absurd ⟨by simp, first⟩ leading

theorem checks_of_isNumeral (numeral : IsNumeral digits) :
    ¬ (1 < digits.length /\ digits.head? = some '0'.toUInt8) := by
  rintro ⟨long, first⟩
  rw [numeral.noLeadingZero first] at long
  simp at long

variable {negative : Bool} {value : Value} {number : Int64} {length pos found : Nat}

theorem integerOf_eq_ok (digit : ∀ byte ∈ digits, isDigit byte = true)
    (read : integerOf start negative digits = .ok number) :
    signedDecimal number.toInt = (if negative = true then ['-'.toUInt8] else []) ++ digits := by
  rw [integerOf] at read
  rcases error_else_eq_ok.mp read with ⟨nonempty, read⟩
  rcases error_else_eq_ok.mp read with ⟨leading, read⟩
  have numeral := isNumeral_of_checks digit nonempty leading
  rcases error_else_eq_ok.mp read with ⟨notZero, read⟩
  split at read
  next minus =>
    rcases else_error_eq_ok.mp read with ⟨_, ⟨⟩⟩
    have positive : numeralValue digits ≠ 0 := by
      intro zero
      apply notZero
      refine ⟨minus, ?_⟩
      rw [<- decimal_numeralValue numeral, zero]
      decide
    rw [toInt_ofInt_of_le (by omega) (by omega), signedDecimal, if_pos (by omega),
      Int.natAbs_neg, Int.natAbs_natCast, decimal_numeralValue numeral, if_pos minus]
    rfl
  next plus =>
    rcases else_error_eq_ok.mp read with ⟨_, ⟨⟩⟩
    rw [toInt_ofInt_of_le (by omega) (by omega), signedDecimal, Int.natAbs_natCast,
      decimal_numeralValue numeral, if_neg plus]
    rfl

theorem integerOf_decimal (start : Nat) (number : Int64) :
    integerOf start (decide (number.toInt < 0)) (decimal number.toInt.natAbs) = .ok number := by
  have numeral := isNumeral_decimal number.toInt.natAbs
  have lower := le_toInt number
  have upper := toInt_lt number
  rw [integerOf, if_neg numeral.nonempty, if_neg (checks_of_isNumeral numeral)]
  rw [numeralValue_decimal]
  by_cases negative : number.toInt < 0
  · have notZero : decimal number.toInt.natAbs ≠ ['0'.toUInt8] := by
      intro zero
      have value := congrArg numeralValue zero
      rw [numeralValue_decimal] at value
      have none : numeralValue ['0'.toUInt8] = 0 := by decide
      omega
    have signed : (-(number.toInt.natAbs : Int)) = number.toInt := by omega
    rw [if_neg (fun both => notZero both.2), if_pos (by simpa using negative),
      if_pos (by omega), signed, ofInt_toInt]
  · have signed : (number.toInt.natAbs : Int) = number.toInt := by omega
    have plus : ¬ decide (number.toInt < 0) = true := by simpa using negative
    rw [if_neg (fun both => plus both.1), if_neg plus, if_pos (by omega), signed, ofInt_toInt]

theorem not_isDigit_e : isDigit 'e'.toUInt8 = false := by decide

theorem parseDigits_eq_ok (read : parseDigits start negative decoder = .ok (value, after)) :
    Exists fun number : Int64 => Exists fun digits =>
    value = .int number /\ Reads decoder (digits ++ ['e'.toUInt8]) after /\
      signedDecimal number.toInt = (if negative = true then ['-'.toUInt8] else []) ++ digits := by
  rw [parseDigits] at read
  rcases error_else_eq_ok.mp read with ⟨_, read⟩
  split at read
  · cases read
  rename_i stop rest found
  rcases else_error_eq_ok.mp read with ⟨ending, read⟩
  split at read
  · cases read
  rename_i number parsed
  cases read
  refine ⟨number, decoder.rest.takeWhile isDigit, rfl, ⟨?_, ?_⟩, ?_⟩
  · rw [append_assoc, <- ending, singleton_append, <- found, takeWhile_append_dropWhile]
  · rw [length_append, length_singleton, Nat.add_assoc]
  · apply integerOf_eq_ok _ parsed
    intro byte member
    exact mem_takeWhile_imp member

theorem parseDigits_encode (reads : Reads decoder (decimal number.toInt.natAbs ++ ['e'.toUInt8]) after) :
    parseDigits start (decide (number.toInt < 0)) decoder = .ok (.int number, after) := by
  have numeral := isNumeral_decimal number.toInt.natAbs
  have rest : decoder.rest = decimal number.toInt.natAbs ++ 'e'.toUInt8 :: after.rest := by
    rw [reads.rest, append_assoc, singleton_append]
  have digits : decoder.rest.takeWhile isDigit = decimal number.toInt.natAbs := by
    rw [rest, takeWhile_append_of_pos numeral.digit,
      takeWhile_cons_of_neg (by simp [not_isDigit_e]), append_nil]
  have found : decoder.rest.dropWhile isDigit = 'e'.toUInt8 :: after.rest := by
    rw [rest, dropWhile_append_of_pos numeral.digit, dropWhile_cons_of_neg (by simp [not_isDigit_e])]
  have some : decoder.rest ≠ [] := by
    rw [rest]
    simp
  have end_ : (⟨decoder.pos + (decimal number.toInt.natAbs).length + 1, after.rest⟩ : Decoder) =
      after := by
    have pos := reads.pos
    rw [length_append, length_singleton, <- Nat.add_assoc] at pos
    rw [<- pos]
  rw [parseDigits, if_neg some, found, digits]
  simp only [if_true, integerOf_decimal, end_]

theorem parseInt_eq_ok (read : parseInt decoder = .ok (value, after)) :
    Exists fun number => value = .int number /\ Reads decoder (encode (.int number)) after := by
  rw [parseInt] at read
  split at read
  · cases read
  rename_i first rest front
  split at read
  case isFalse => cases read
  next marker =>
    rw [marker] at front
    split at read
    · cases read
    rename_i sign body
    split at read
    next minus =>
      rcases parseDigits_eq_ok read with ⟨number, _, shape, reads, spelled⟩
      refine ⟨number, shape, ?_⟩
      have opened : Reads decoder ['i'.toUInt8, '-'.toUInt8] ⟨decoder.pos + 2, body⟩ := by
        refine ⟨?_, rfl⟩
        rw [front, minus]
        rfl
      have whole := opened.trans reads
      rw [encode, spelled]
      exact whole
    · rcases parseDigits_eq_ok read with ⟨number, _, shape, reads, spelled⟩
      refine ⟨number, shape, ?_⟩
      rw [encode, spelled]
      exact (Reads.cons front).trans reads

theorem parseInt_encode (reads : Reads decoder (encode (.int number)) after) :
    parseInt decoder = .ok (.int number, after) := by
  have numeral := isNumeral_decimal number.toInt.natAbs
  have rest := reads.rest
  have pos := reads.pos
  rw [encode] at rest pos
  have digits : ∀ start, after.pos = start + (decimal number.toInt.natAbs ++ ['e'.toUInt8]).length ->
      parseDigits decoder.pos (decide (number.toInt < 0))
        ⟨start, decimal number.toInt.natAbs ++ 'e'.toUInt8 :: after.rest⟩ =
      .ok (.int number, after) := by
    intro start long
    have read : Reads ⟨start, decimal number.toInt.natAbs ++ 'e'.toUInt8 :: after.rest⟩
        (decimal number.toInt.natAbs ++ ['e'.toUInt8]) after := ⟨by simp, long⟩
    exact parseDigits_encode read
  by_cases negative : number.toInt < 0
  · rw [signedDecimal, if_pos negative] at rest pos
    have parsed := digits (decoder.pos + 2) (by simp at pos ⊢; omega)
    rw [decide_eq_true negative] at parsed
    rw [parseInt, rest]
    simpa using parsed
  · rw [signedDecimal, if_neg negative] at rest pos
    have parsed := digits (decoder.pos + 1) (by simp at pos ⊢; omega)
    rw [decide_eq_false negative] at parsed
    -- The text after the marker starts with a digit, which is not the sign.
    cases text : decimal number.toInt.natAbs with
    | nil => exact absurd text numeral.nonempty
    | cons first =>
      have digit : isDigit first = true := numeral.digit first (by simp [text])
      have notSign : first ≠ '-'.toUInt8 := by
        intro sign
        rw [sign] at digit
        exact absurd digit (by decide)
      rw [text] at rest parsed
      rw [parseInt, rest]
      simpa [notSign] using parsed

/-! ## Byte strings -/

theorem parseLength_later (read : parseLength start true length pos rest = .ok (found, after)) :
    Exists fun digits => (∀ byte ∈ digits, isDigit byte = true) /\
    rest = digits ++ ':'.toUInt8 :: after.rest /\ found = digits.foldl
    (fun value byte => value * 10 + digitValue byte) length /\ after.pos = pos + digits.length + 1 := by
  induction rest generalizing length pos with
  | nil => cases read
  | cons byte rest ih =>
    rw [parseLength] at read
    split at read
    next colon =>
      cases read
      refine ⟨[], by simp, ?_, rfl, rfl⟩
      rw [colon]
      rfl
    · rcases error_else_eq_ok.mp read with ⟨digit, read⟩
      rw [if_neg (by simp)] at read
      rcases else_error_eq_ok.mp read with ⟨_, read⟩
      rcases ih read with ⟨digits, all, shape, value, ending⟩
      refine ⟨byte :: digits, ?_, ?_, ?_, ?_⟩
      · intro other member
        rcases mem_cons.mp member with rfl | later
        · simpa using digit
        · exact all other later
      · rw [shape, cons_append]
      · rw [value, foldl_cons]
      · rw [ending, length_cons]
        omega

theorem parseLength_eq_ok (read : parseLength start false 0 pos rest = .ok (found, after)) :
    Reads ⟨pos, rest⟩ (decimal found ++ [':'.toUInt8]) after := by
  cases rest with
  | nil => cases read
  | cons byte =>
    rw [parseLength] at read
    rcases error_else_eq_ok.mp read with ⟨_, read⟩
    rcases error_else_eq_ok.mp read with ⟨digit, read⟩
    split at read
    next zero =>
      split at read
      · cases read
      rename_i next ahead
      rcases error_else_eq_ok.mp read with ⟨single, read⟩
      rcases parseLength_later read with ⟨digits, all, shape, value, ending⟩
      have none : digits = [] := by
        cases digits with
        | nil => rfl
        | cons first =>
          rw [shape] at ahead
          have isDigit' := all first (mem_cons.mpr (Or.inl rfl))
          rw [Option.some.inj ahead] at isDigit'
          refine absurd ⟨?_, isDigit'⟩ single
          intro colon
          rw [colon] at isDigit'
          exact absurd isDigit' (by decide)
      rw [none] at shape value ending
      refine ⟨?_, ?_⟩
      · rw [shape, zero.2, value]
        rfl
      · rw [ending, value]
        rfl
    next notZero =>
      rcases else_error_eq_ok.mp read with ⟨_, read⟩
      rcases parseLength_later read with ⟨digits, all, shape, value, ending⟩
      have numeral : IsNumeral (byte :: digits) := by
        refine ⟨by simp, ?_, ?_⟩
        · intro other member
          rcases mem_cons.mp member with rfl | later
          · simpa using digit
          · exact all other later
        · intro first
          rw [digitByte_zero] at first
          exact absurd ⟨rfl, by simpa using first⟩ notZero
      have spelled : decimal found = byte :: digits := by
        rw [value, <- decimal_numeralValue numeral, numeralValue, foldl_cons]
      refine ⟨?_, ?_⟩
      · rw [spelled, shape]
        simp
      · rw [ending, spelled, length_append, length_cons, length_singleton]
        dsimp only
        omega

/-- Digits up to a colon are read as long as their value is a `usize`. -/
theorem parseLength_digits (digit : ∀ byte ∈ digits, isDigit byte = true)
    (small : digits.foldl (fun value byte => value * 10 + digitValue byte) length < usizeBound) :
    parseLength start true length pos (digits ++ ':'.toUInt8 :: rest) =
    .ok (digits.foldl (fun value byte => value * 10 + digitValue byte) length,
      ⟨pos + digits.length + 1, rest⟩) := by
  induction digits generalizing length pos with
  | nil => rfl
  | cons byte digits ih =>
    have isDigit' : isDigit byte = true := digit byte (mem_cons.mpr (Or.inl rfl))
    have notColon : byte ≠ ':'.toUInt8 := by
      intro colon
      rw [colon] at isDigit'
      exact absurd isDigit' (by decide)
    have below : length * 10 + digitValue byte < usizeBound := by
      rw [foldl_cons, foldl_numeral] at small
      have grows : length * 10 + digitValue byte <= (length * 10 + digitValue byte) * 10 ^ digits.length :=
        Nat.le_mul_of_pos_right _ (by positivity)
      omega
    rw [cons_append, parseLength, if_neg notColon, if_neg (by simp [isDigit']),
      if_neg (by simp), if_pos below,
      ih (fun other member => digit other (mem_cons_of_mem _ member)) small,
      foldl_cons, length_cons]
    congr 3
    omega

theorem parseLength_decimal {length : Nat} (small : length < usizeBound) :
    parseLength start false 0 pos (decimal length ++ ':'.toUInt8 :: rest) =
    .ok (length, ⟨pos + (decimal length).length + 1, rest⟩) := by
  have numeral := isNumeral_decimal length
  have value := numeralValue_decimal length
  cases text : decimal length with
  | nil => exact absurd text numeral.nonempty
  | cons byte digits =>
    rw [text] at numeral value
    have isDigit' : isDigit byte = true := numeral.digit byte (mem_cons.mpr (Or.inl rfl))
    have notColon : byte ≠ ':'.toUInt8 := by
      intro colon
      rw [colon] at isDigit'
      exact absurd isDigit' (by decide)
    by_cases zero : byte = '0'.toUInt8
    · have single : byte :: digits = [digitByte 0] :=
        numeral.noLeadingZero (by rw [zero, digitByte_zero]; rfl)
      rcases List.cons.inj single with ⟨-, none⟩
      rw [single] at value
      have length' : length = 0 := by
        rw [<- value]
        decide
      rw [none, cons_append, parseLength, if_neg notColon, if_neg (by simp [isDigit']), if_pos ⟨rfl, zero⟩]
      rw [length']
      rfl
    · have folded : digits.foldl (fun value byte => value * 10 + digitValue byte)
          (0 * 10 + digitValue byte) = length := by
        rw [<- value, numeralValue, foldl_cons]
      have below : 0 * 10 + digitValue byte < usizeBound := by
        have bound := digitValue_lt isDigit'
        rw [usizeBound]
        omega
      have read : parseLength start true (0 * 10 + digitValue byte) (pos + 1)
          (digits ++ ':'.toUInt8 :: rest) = _ :=
        parseLength_digits (fun other member => numeral.digit other (mem_cons_of_mem _ member))
          (by rw [folded]; exact small)
      rw [cons_append, parseLength, if_neg notColon, if_neg (by simp [isDigit']),
        if_neg (fun both => zero both.2), if_pos below, read, length_cons]
      congr 3
      omega

theorem parseBytes_eq_ok (read : parseBytes decoder = .ok (text, after)) :
    Reads decoder (encodeBytes text) after := by
  rw [parseBytes] at read
  split at read
  · cases read
  rename_i length middle parsed
  rcases else_error_eq_ok.mp read with ⟨_, read⟩
  rcases else_error_eq_ok.mp read with ⟨inside, read⟩
  have head := parseLength_eq_ok parsed
  have body : Reads middle (middle.rest.take length) ⟨middle.pos + length, middle.rest.drop length⟩ := by
    refine ⟨(take_append_drop length middle.rest).symm, ?_⟩
    rw [length_take, Nat.min_eq_left inside]
  have whole := head.trans body
  cases read
  rw [encodeBytes, length_take, Nat.min_eq_left inside]
  rw [append_assoc] at whole
  exact whole

theorem parseBytes_encode (reads : Reads decoder (encodeBytes text) after)
    (fits : decoder.pos + decoder.rest.length < usizeBound) : parseBytes decoder = .ok (text, after) := by
  have total := reads.total
  have rest := reads.rest
  have pos := reads.pos
  rw [encodeBytes, append_assoc, cons_append] at rest
  rw [encodeBytes, length_append, length_cons] at pos
  have small : text.length < usizeBound := by omega
  have ending : decoder.pos + (decimal text.length).length + 1 + text.length = after.pos := by omega
  rw [parseBytes, rest, parseLength_decimal small]
  dsimp only
  rw [ending, if_pos (by omega), if_pos (by simp), take_left, drop_left]

end Decoder
end TorrentPlayer.Meta
