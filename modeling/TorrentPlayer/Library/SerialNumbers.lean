import Mathlib.Data.Int.Basic
import Mathlib.Tactic.Ring

namespace TorrentPlayer.Library

/-!
# Serial numbers

Items are numbered by words of a fixed width, which wrap.  Two numbers are
compared by the sign of their difference.  The comparison is right for items
that are less than half the number space apart.
-/

variable {width : Nat}

/-- The word of the item with a given count. -/
def serial (first : BitVec width) (count : Nat) : BitVec width :=
  first + BitVec.ofNat width count

variable (first : BitVec width) (count : Nat) {left right : Nat}

theorem serial_succ : serial first (count + 1) = serial first count + 1 := by
  rw [serial, serial, BitVec.add_assoc, BitVec.ofNat_add]
  rfl

theorem toInt_serial : (serial first count).toInt = (first.toInt + count).bmod (2 ^ width) := by
  rw [serial, BitVec.toInt_add, BitVec.toInt_ofNat', Int.add_bmod_bmod]

/-- The distance of two items that are close to each other. -/
theorem toInt_serial_sub (below : -(2 ^ width : Nat) <= ((left : Int) - right) * 2)
    (above : ((left : Int) - right) * 2 < (2 ^ width : Nat)) :
    (serial first left - serial first right).toInt = (left : Int) - right := by
  have distance : first.toInt + left - (first.toInt + right) = (left : Int) - right := by omega
  rw [BitVec.toInt_sub, toInt_serial, toInt_serial, Int.bmod_sub_bmod, Int.sub_bmod_bmod, distance,
    Int.bmod_eq_of_le_mul_two below above]

/-- Items that are close to each other have different words. -/
theorem serial_inj (below : -(2 ^ width : Nat) <= ((left : Int) - right) * 2)
    (above : ((left : Int) - right) * 2 < (2 ^ width : Nat)) :
    serial first left = serial first right <-> left = right := by
  constructor
  · intro same
    have distance := toInt_serial_sub first below above
    rw [same, BitVec.sub_self, BitVec.toInt_zero] at distance
    omega
  · intro same
    rw [same]

/-- How many items a later word is ahead. -/
theorem toNat_serial_sub {count more : Nat} (near : more < 2 ^ width) :
    (serial first (count + more) - serial first count).toNat = more := by
  have split : serial first (count + more) = serial first count + BitVec.ofNat width more := by
    rw [serial, serial, BitVec.add_assoc, BitVec.ofNat_add]
  rw [split, BitVec.add_comm, BitVec.add_sub_cancel, BitVec.toNat_ofNat, Nat.mod_eq_of_lt near]

end TorrentPlayer.Library
