import Mathlib.Algebra.Order.BigOperators.Group.List
import Mathlib.Algebra.BigOperators.Group.List.Basic
import Mathlib.Tactic.Linarith

namespace TorrentPlayer.Library

open List

/-!
# Items placed one after the other

Items of given lengths are placed from zero on, and each takes at least its own length.
The space beyond the length is padding.  An item ends inside the sum of all lengths only
when no padding stands before it.
-/

section
variable {padded : Int -> Int}

/-- Where the item after `lengths` is placed. -/
def placedAt (padded : Int -> Int) (lengths : List Int) : Int :=
  (lengths.map padded).sum

theorem placedAt_append (padded : Int -> Int) (first second : List Int) :
    placedAt padded (first ++ second) = placedAt padded first + placedAt padded second := by
  rw [placedAt, map_append, sum_append]
  rfl

theorem placedAt_cons (padded : Int -> Int) (length : Int) (lengths : List Int) :
    placedAt padded (length :: lengths) = padded length + placedAt padded lengths := by
  rfl

theorem placedAt_singleton (padded : Int -> Int) (length : Int) :
    placedAt padded [length] = padded length := by
  rw [placedAt, map_singleton, sum_singleton]

variable {lengths before : List Int}

theorem placedAt_of_forall_eq (tight : ∀ item ∈ lengths, padded item = item) :
    placedAt padded lengths = lengths.sum := by
  rw [placedAt, map_congr_left tight, map_id']

theorem sum_le_placedAt (grows : ∀ item, 0 <= item -> item <= padded item)
    (nonneg : ∀ item ∈ lengths, 0 <= item) : lengths.sum <= placedAt padded lengths := by
  induction lengths with
  | nil => exact le_refl _
  | cons length lengths ih =>
    have own := grows length (nonneg length (mem_cons.mpr (Or.inl rfl)))
    have rest := ih (fun item member => nonneg item (mem_cons_of_mem _ member))
    rw [placedAt_cons, sum_cons]
    omega

theorem padded_eq_of_placedAt_le
    (grows : ∀ item, 0 <= item -> item <= padded item) (nonneg : ∀ item ∈ lengths, 0 <= item)
    (tight : placedAt padded lengths <= lengths.sum) : ∀ item ∈ lengths, padded item = item := by
  induction lengths with
  | nil => nofun
  | cons length lengths ih =>
    have later : ∀ item ∈ lengths, 0 <= item :=
      fun item member => nonneg item (mem_cons_of_mem _ member)
    have own := grows length (nonneg length (mem_cons.mpr (Or.inl rfl)))
    have rest := sum_le_placedAt grows later
    rw [placedAt_cons, sum_cons] at tight
    intro item member
    rcases mem_cons.mp member with rfl | inside
    · omega
    · exact ih later (by omega) item inside

/-- Only items after which nothing follows but empty ones are padded. -/
def PaddedLast (padded : Int -> Int) (lengths : List Int) : Prop :=
  lengths.Pairwise (fun earlier later => 0 < later -> padded earlier = earlier)

variable {after : List Int}

theorem PaddedLast.placedAt_eq_sum {length : Int} (last : PaddedLast padded (before ++ length :: after))
    (positive : 0 < length) : placedAt padded before = before.sum := by
  apply placedAt_of_forall_eq
  intro item member
  exact (pairwise_append.mp last).2.2 item member length (mem_cons.mpr (Or.inl rfl)) positive

theorem PaddedLast.placedAt_le {slack : Int} (zero : padded 0 = 0)
    (bounded : ∀ item, 0 <= item -> padded item <= item + slack) (room : 0 <= slack)
    (last : PaddedLast padded (before ++ after))
    (nonneg : ∀ item ∈ before ++ after, 0 <= item) :
    placedAt padded before <= before.sum + slack := by
  induction before with
  | nil =>
    rw [placedAt, map_nil]
    omega
  | cons length before ih =>
    rcases pairwise_cons.mp last with ⟨first, rest⟩
    have own := nonneg length (mem_cons.mpr (Or.inl rfl))
    have later := ih rest (fun item member => nonneg item (mem_cons_of_mem _ member))
    rw [placedAt_cons, sum_cons]
    by_cases follows : Exists fun item => item ∈ before ++ after /\ 0 < item
    · rcases follows with ⟨item, inside, positive⟩
      rw [first item inside positive]
      omega
    have empty : ∀ item ∈ before, item = 0 := by
      intro item member
      have notPositive : ¬ 0 < item := fun positive => follows ⟨item, mem_append_left _ member, positive⟩
      have notNegative := nonneg item (mem_cons_of_mem _ (mem_append_left _ member))
      omega
    have placed : placedAt padded before = before.sum := by
      apply placedAt_of_forall_eq
      intro item member
      rw [empty item member, zero]
    have padding := bounded length own
    omega

/-- Conversely, when the last item that is not empty ends inside the sum of all lengths,
nothing before it is padded. -/
theorem paddedLast_of_placedAt_le (grows : ∀ item, 0 <= item -> item <= padded item)
    {length : Int} (nonneg : ∀ item ∈ before, 0 <= item) (empty : ∀ item ∈ after, item <= 0)
    (tight : placedAt padded before <= before.sum) : PaddedLast padded (before ++ length :: after) := by
  have equal := padded_eq_of_placedAt_le grows nonneg tight
  refine pairwise_append.mpr ⟨?_, ?_, ?_⟩
  · refine pairwise_of_forall_mem_list ?_
    intro earlier member _ _ _
    exact equal earlier member
  · refine pairwise_cons.mpr ⟨?_, ?_⟩
    · intro later member positive
      exact absurd (empty later member) (by omega)
    · refine pairwise_of_forall_mem_list ?_
      intro _ _ later member positive
      exact absurd (empty later member) (by omega)
  · intro earlier member _ _ _
    exact equal earlier member

theorem exists_last_positive (nonneg : ∀ item ∈ lengths, 0 <= item)
    (positive : 0 < lengths.sum) : Exists fun before => Exists fun length => Exists fun after =>
    lengths = before ++ length :: after /\ 0 < length /\ ∀ item ∈ after, item <= 0 := by
  induction lengths with
  | nil => exact absurd positive (lt_irrefl 0)
  | cons length lengths ih =>
    have later : ∀ item ∈ lengths, 0 <= item :=
      fun item member => nonneg item (mem_cons_of_mem _ member)
    rw [sum_cons] at positive
    by_cases more : 0 < lengths.sum
    · rcases ih later more with ⟨before, item, after, shape, found, empty⟩
      exact ⟨length :: before, item, after, by rw [shape, cons_append], found, empty⟩
    · refine ⟨[], length, lengths, rfl, by omega, ?_⟩
      intro item member
      have small := single_le_sum later item member
      omega

end
end TorrentPlayer.Library
