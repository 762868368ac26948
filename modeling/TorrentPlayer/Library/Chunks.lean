import Mathlib.Data.List.Basic
import Mathlib.Tactic.Ring

namespace TorrentPlayer.Library

open List

/-!
# A list cut into chunks of one size

Every chunk has the same size except the last, which may be shorter.  A list
is the concatenation of its chunks, so two lists of one length are equal when
their chunks are; and overwriting one chunk leaves the others as they were.
-/

universe u

variable {A : Type u}

/-- The chunk with the given number; empty behind the end of the list. -/
def chunk (size k : Nat) (list : List A) : List A :=
  (list.drop (k * size)).take size

/-- How many chunks a length is cut into. -/
def chunkCount (size length : Nat) : Nat :=
  (length + size - 1) / size

/-- Replace the elements from a position on. -/
def overwrite (start : Nat) (data list : List A) : List A :=
  list.take start ++ data ++ list.drop (start + data.length)

theorem length_chunk (size k : Nat) (list : List A) :
    (chunk size k list).length = min size (list.length - k * size) := by
  rw [chunk, length_take, length_drop]

variable {size : Nat}

theorem lt_chunkCount_iff (positive : 0 < size) (length k : Nat) :
    k < chunkCount size length <-> k * size < length := by
  unfold chunkCount
  constructor
  · intro below
    have enough := (Nat.le_div_iff_mul_le positive).mp (Nat.succ_le_of_lt below)
    rw [Nat.succ_mul] at enough
    omega
  · intro below
    apply Nat.lt_of_succ_le
    rw [Nat.le_div_iff_mul_le positive, Nat.succ_mul]
    omega

theorem chunk_succ (size k : Nat) (list : List A) :
    chunk size (k + 1) list = chunk size k (list.drop size) := by
  rw [chunk, chunk, drop_drop, Nat.succ_mul, Nat.add_comm]

theorem flatMap_chunk : ∀ (count : Nat) (list : List A), list.length <= count * size ->
    (List.range count).flatMap (fun k => chunk size k list) = list := by
  intro count
  induction count with
  | zero =>
    intro list short
    rw [Nat.zero_mul] at short
    rw [length_eq_zero_iff.mp (Nat.le_zero.mp short)]
    rfl
  | succ count ih =>
    intro list short
    have rest : (list.drop size).length <= count * size := by
      rw [length_drop]
      rw [Nat.succ_mul] at short
      omega
    have shifted : (fun k => chunk size (k + 1) list) = (fun k => chunk size k (list.drop size)) :=
      funext (fun k => chunk_succ size k list)
    have first : chunk size 0 list = list.take size := by rw [chunk, Nat.zero_mul, drop_zero]
    rw [range_succ_eq_map, flatMap_cons, flatMap_map, shifted, ih (list.drop size) rest, first]
    exact take_append_drop size list

theorem length_le_chunkCount_mul (positive : 0 < size) (length : Nat) :
    length <= chunkCount size length * size := by
  have notBelow : ¬chunkCount size length < chunkCount size length := Nat.lt_irrefl _
  rw [lt_chunkCount_iff positive] at notBelow
  exact Nat.le_of_not_lt notBelow

theorem eq_of_chunks (positive : 0 < size) {left right : List A}
    (lengths : left.length = right.length) (chunks : ∀ k < chunkCount size right.length,
      chunk size k left = chunk size k right) : left = right := by
  have enough := length_le_chunkCount_mul positive right.length
  calc left = (List.range (chunkCount size right.length)).flatMap (fun k => chunk size k left) :=
        (flatMap_chunk _ left (by rw [lengths]; exact enough)).symm
    _ = (List.range (chunkCount size right.length)).flatMap (fun k => chunk size k right) :=
        flatMap_congr (fun k member => chunks k (mem_range.mp member))
    _ = right := flatMap_chunk _ right enough

variable {data list : List A}

theorem length_overwrite {start : Nat} (within : start + data.length <= list.length) :
    (overwrite start data list).length = list.length := by
  simp only [overwrite, length_append, length_take, length_drop]
  omega

theorem getElem?_overwrite {start : Nat}
    (within : start + data.length <= list.length) (i : Nat) : (overwrite start data list)[i]? =
    if start <= i /\ i < start + data.length then data[i - start]? else list[i]? := by
  have front : (list.take start).length = start := by
    rw [length_take]
    omega
  unfold overwrite
  by_cases before : i < start
  · rw [append_assoc, getElem?_append_left (by omega), getElem?_take_of_lt before, if_neg (by omega)]
  by_cases inside : i < start + data.length
  · rw [append_assoc, getElem?_append_right (by omega), front,
      getElem?_append_left (by omega), if_pos (by omega)]
  · rw [getElem?_append_right (by rw [length_append]; omega), length_append,
      front, getElem?_drop, if_neg (by omega)]
    congr 1
    omega

theorem getElem?_chunk (size k : Nat) (list : List A) (i : Nat) :
    (chunk size k list)[i]? = if i < size then list[k * size + i]? else none := by
  rw [chunk, getElem?_take, getElem?_drop]

theorem chunk_overwrite_self {k : Nat} (fits : data.length = min size (list.length - k * size))
    (below : k * size < list.length) : chunk size k (overwrite (k * size) data list) = data := by
  apply ext_getElem?
  intro i
  rw [getElem?_chunk, getElem?_overwrite (by omega)]
  by_cases inside : i < data.length
  · rw [if_pos (by omega), if_pos (by omega), Nat.add_sub_cancel_left]
  rw [getElem?_eq_none (Nat.le_of_not_lt inside)]
  split
  · rw [if_neg (by omega), getElem?_eq_none (by omega)]
  · rfl

theorem chunk_overwrite_other {k other : Nat}
    (fits : data.length = min size (list.length - k * size)) (below : k * size < list.length)
    (differs : other ≠ k) : chunk size other (overwrite (k * size) data list) = chunk size other list := by
  apply ext_getElem?
  intro i
  rw [getElem?_chunk, getElem?_chunk, getElem?_overwrite (by omega)]
  by_cases inside : i < size
  case neg => rw [if_neg inside, if_neg inside]
  -- Two different chunks have no position in common.
  have outside : ¬(k * size <= other * size + i /\ other * size + i < k * size + data.length) := by
    rcases Nat.lt_or_gt_of_ne differs with before | after
    · have apart := Nat.mul_le_mul_right size (Nat.succ_le_of_lt before)
      rw [Nat.succ_mul] at apart
      omega
    · have apart := Nat.mul_le_mul_right size (Nat.succ_le_of_lt after)
      rw [Nat.succ_mul] at apart
      omega
  rw [if_neg outside]

end TorrentPlayer.Library
