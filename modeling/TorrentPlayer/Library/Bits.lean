import Mathlib.Data.List.Basic
import Mathlib.Tactic.IntervalCases
import Mathlib.Tactic.Ring

namespace TorrentPlayer.Library

/-!
# Single bits of a word

Tests and updates with a mask of one bit, as operations on the bits of the word.
-/

section
variable {width : Nat} (word : BitVec width) {index other : Nat}

theorem getLsbD_oneBit (inside : other < width) :
    (BitVec.ofNat width 1 <<< index).getLsbD other = decide (other = index) := by
  by_cases below : other < index
  · simp [below]
    omega
  · by_cases same : other = index
    · simp [same]
      omega
    · have later : other - index ≠ 0 := by omega
      simp [same, later]

theorem and_oneBit_ne_zero (inside : index < width) :
    (word &&& BitVec.ofNat width 1 <<< index != BitVec.ofNat width 0) = word.getLsbD index := by
  cases held : word.getLsbD index with
  | true =>
    refine bne_iff_ne.mpr ?_
    intro zero
    have bit := congrArg (fun word => word.getLsbD index) zero
    simp [held, getLsbD_oneBit inside] at bit
  | false =>
    have zero : word &&& BitVec.ofNat width 1 <<< index = BitVec.ofNat width 0 := by
      apply BitVec.eq_of_getLsbD_eq
      intro other small
      rw [BitVec.getLsbD_and, getLsbD_oneBit small, BitVec.getLsbD_zero]
      by_cases same : other = index
      · rw [same, held, Bool.false_and]
      · rw [decide_eq_false same, Bool.and_false]
    rw [zero, bne_self_eq_false]

theorem getLsbD_or_oneBit (inside : other < width) : (word ||| BitVec.ofNat width 1 <<< index).getLsbD other =
      (word.getLsbD other || decide (other = index)) := by
  rw [BitVec.getLsbD_or, getLsbD_oneBit inside]

end

theorem toBitVec_oneBit {index : Nat} (small : index < 8) :
    ((1 : UInt8) <<< UInt8.ofNat index).toBitVec = 1#8 <<< index := by
  interval_cases index <;> decide

theorem and_byteBit_ne_zero (byte : UInt8) {index : Nat} (small : index < 8) :
    (byte &&& 1 <<< UInt8.ofNat index != 0) = byte.toBitVec.getLsbD index := by
  rw [<- and_oneBit_ne_zero byte.toBitVec small, <- toBitVec_oneBit small]
  rw [Bool.eq_iff_iff, bne_iff_ne, bne_iff_ne, ne_eq, <- UInt8.toBitVec_inj]
  rfl

theorem getLsbD_or_byteBit (byte : UInt8) {index other : Nat} (small : index < 8)
    (small' : other < 8) : (byte ||| 1 <<< UInt8.ofNat index).toBitVec.getLsbD other =
      (byte.toBitVec.getLsbD other || decide (other = index)) := by
  rw [UInt8.toBitVec_or, toBitVec_oneBit small, getLsbD_or_oneBit _ small']

end TorrentPlayer.Library
