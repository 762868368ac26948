import Mathlib.Data.List.TakeWhile

namespace TorrentPlayer.Library

open List

/-!
# The partition point of a list

A predicate partitions a list when no value with the property stands behind a
value without it.  The number of values with the property is then found by
halving.
-/

variable {X : Type}

/-- Halve the positions from `low` up to `high`.  As many rounds as there are
positions are enough. -/
def searchBetween (below : X -> Bool) (values : List X) : Nat -> Nat -> Nat -> Nat
  | 0, low, _ => low
  | rounds + 1, low, high =>
    if low < high then
      let middle := low + (high - low) / 2
      match values[middle]? with
      | none => low
      | some value =>
        if below value then searchBetween below values rounds (middle + 1) high
        else searchBetween below values rounds low middle
    else low

def partitionPoint (below : X -> Bool) (values : List X) : Nat :=
  searchBetween below values values.length 0 values.length

/-- No value with the property stands behind one without it. -/
def Partitioned (below : X -> Bool) (values : List X) : Prop :=
  values.Pairwise (fun earlier later => below later = true -> below earlier = true)

variable {below : X -> Bool} {values : List X}

theorem takeWhile_eq_nil_of_first {value : X} {rest : List X}
    (fails : below value = false) : (value :: rest).takeWhile below = [] := by
  rw [takeWhile_cons, fails]
  rfl

theorem below_iff_lt (partitioned : Partitioned below values)
    {position : Nat} {value : X} (there : values[position]? = some value) :
    below value = true <-> position < (values.takeWhile below).length := by
  induction values generalizing position with
  | nil => cases there
  | cons head tail ih =>
    rcases pairwise_cons.mp partitioned with ⟨ahead, rest⟩
    cases known : below head with
    | false =>
      rw [takeWhile_eq_nil_of_first known]
      refine ⟨?_, fun absurdity => absurd absurdity (Nat.not_lt_zero _)⟩
      intro holds
      rcases mem_cons.mp (mem_of_getElem? there) with same | behind
      · rw [same, known] at holds
        cases holds
      · rw [ahead value behind holds] at known
        cases known
    | true =>
      rw [takeWhile_cons_of_pos known, length_cons]
      cases position with
      | zero =>
        rw [getElem?_cons_zero, Option.some.injEq] at there
        rw [<- there]
        exact ⟨fun _ => Nat.succ_pos _, fun _ => known⟩
      | succ =>
        rw [ih rest there]
        omega

theorem length_takeWhile_le (below : X -> Bool) (values : List X) :
    (values.takeWhile below).length <= values.length :=
  (List.takeWhile_prefix below).length_le

theorem searchBetween_eq (partitioned : Partitioned below values)
    (rounds : Nat) {low high : Nat} (enough : high - low <= rounds) (inside : high <= values.length)
    (lower : low <= (values.takeWhile below).length) (upper : (values.takeWhile below).length <= high) :
    searchBetween below values rounds low high = (values.takeWhile below).length := by
  induction rounds generalizing low high with
  | zero =>
    rw [searchBetween]
    omega
  | succ rounds ih =>
    rw [searchBetween]
    split
    case isFalse => omega
    · have middleInside : low + (high - low) / 2 < values.length := by omega
      have side := below_iff_lt partitioned (getElem?_eq_getElem middleInside)
      dsimp only
      rw [getElem?_eq_getElem middleInside]
      dsimp only
      split
      next holds =>
        have before := side.mp holds
        exact ih (by omega) inside (by omega) upper
      next fails =>
        have behind : ¬ low + (high - low) / 2 < (values.takeWhile below).length :=
          fun before => fails (side.mpr before)
        exact ih (by omega) (by omega) lower (by omega)

theorem partitionPoint_eq (partitioned : Partitioned below values) :
    partitionPoint below values = (values.takeWhile below).length :=
  searchBetween_eq partitioned values.length (by omega) (Nat.le_refl _) (Nat.zero_le _)
    (length_takeWhile_le below values)

end TorrentPlayer.Library
