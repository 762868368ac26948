import Mathlib.Data.List.Basic

namespace TorrentPlayer.Library

/-!
# Masking with a keystream

A generator gives one byte after the other, and masking adds the next one to
every byte of a text, bit by bit.  The generator does not see the text.  Masking
twice from one state therefore gives the text back, and a text may be masked in
parts.
-/

universe u

variable {Key : Type u}

/-- The masked text, and the generator after it. -/
def mask (next : Key -> UInt8 × Key) (key : Key) : List UInt8 -> List UInt8 × Key
  | [] => ([], key)
  | byte :: bytes =>
    let rest := mask next (next key).2 bytes
    ((byte ^^^ (next key).1) :: rest.1, rest.2)

variable (next : Key -> UInt8 × Key) (key : Key)

theorem mask_append (front back : List UInt8) : mask next key (front ++ back) =
    ((mask next key front).1 ++ (mask next (mask next key front).2 back).1,
      (mask next (mask next key front).2 back).2) := by
  induction front generalizing key with
  | nil => rfl
  | cons byte front ih => simp [mask, ih]

theorem mask_mask (text : List UInt8) :
    mask next key (mask next key text).1 = (text, (mask next key text).2) := by
  induction text generalizing key with
  | nil => rfl
  | cons byte text ih => rw [mask, mask, ih, UInt8.xor_assoc, UInt8.xor_self, UInt8.xor_zero]

theorem take_mask (count : Nat) (text : List UInt8) :
    (mask next key text).1.take count = (mask next key (text.take count)).1 := by
  induction text generalizing key count with
  | nil => simp [mask]
  | cons byte text ih =>
    cases count with
    | zero => rfl
    | succ count => simp [mask, ih]

end TorrentPlayer.Library
