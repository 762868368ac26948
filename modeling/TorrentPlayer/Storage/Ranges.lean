import Mathlib.Algebra.BigOperators.Group.List.Basic
import Mathlib.Data.List.TakeWhile
import Mathlib.Tactic.Ring

namespace TorrentPlayer.Storage

open List

/-!
# Received ranges

Which bytes of a piece are there is kept as a list of half-open ranges.  The
list is in order, and there is a gap between each range and the next.  A new
range is merged into the list.
-/

/-- The bytes from `start` up to, but not including, `stop`. -/
structure ByteRange where
  start : Nat
  stop : Nat
  deriving DecidableEq

namespace ByteRange

def Contains (range : ByteRange) (position : Nat) : Prop :=
  range.start <= position /\ position < range.stop

instance (range : ByteRange) (position : Nat) : Decidable (range.Contains position) :=
  inferInstanceAs (Decidable (_ /\ _))

end ByteRange

/-- Merge the ranges that touch the incoming one, from the front. -/
def absorb (incoming : ByteRange) : List ByteRange -> List ByteRange
  | [] => [incoming]
  | range :: rest =>
    if range.start <= incoming.stop then
      absorb
        { start := min incoming.start range.start, stop := max incoming.stop range.stop } rest
    else incoming :: range :: rest

def mergeReceivedRange (ranges : List ByteRange) (incoming : ByteRange) : List ByteRange :=
  if incoming.stop <= incoming.start then ranges
  else
    ranges.takeWhile (fun range => range.stop < incoming.start) ++
      absorb incoming (ranges.dropWhile (fun range => range.stop < incoming.start))

/-- Walk over the ranges with the first position that is not known to be there. -/
def coverFrom (stop : Nat) : Nat -> List ByteRange -> Bool
  | next, [] => decide (stop <= next)
  | next, range :: rest =>
    if next < range.start then false
    else if next < range.stop then
      if stop <= range.stop then true else coverFrom stop range.stop rest
    else coverFrom stop next rest

def rangesCover (ranges : List ByteRange) (start stop : Nat) : Bool :=
  decide (stop <= start) || coverFrom stop start ranges

def Covered (ranges : List ByteRange) (position : Nat) : Prop :=
  Exists fun range : ByteRange => range ∈ ranges /\ range.Contains position

instance (ranges : List ByteRange) (position : Nat) : Decidable (Covered ranges position) :=
  inferInstanceAs (Decidable (Exists fun range => range ∈ ranges /\ _))

@[simp] theorem covered_nil (position : Nat) : ¬ Covered [] position := by
  rintro ⟨range, within, _⟩
  cases within

theorem covered_cons (range : ByteRange) (ranges : List ByteRange) (position : Nat) :
    Covered (range :: ranges) position <-> range.Contains position \/ Covered ranges position := by
  simp only [Covered, mem_cons, exists_eq_or_imp]

theorem covered_append (left right : List ByteRange) (position : Nat) :
    Covered (left ++ right) position <-> Covered left position \/ Covered right position := by
  simp only [Covered, mem_append, or_and_right, exists_or]

variable {position : Nat} {ranges : List ByteRange} {incoming : ByteRange}

theorem covered_of_coverFrom {stop next : Nat} (covers : coverFrom stop next ranges = true)
    (above : next <= position) (below : position < stop) : Covered ranges position := by
  induction ranges generalizing next with
  | nil =>
    have short := of_decide_eq_true covers
    omega
  | cons range rest ih =>
    rw [coverFrom] at covers
    rw [covered_cons]
    split at covers
    · cases covers
    by_cases inside : position < range.stop
    · exact .inl ⟨by omega, inside⟩
    right
    split at covers
    · split at covers
      · omega
      · exact ih covers (by omega)
    · exact ih covers above

theorem covered_of_rangesCover {start stop : Nat} (covers : rangesCover ranges start stop = true)
    (above : start <= position) (below : position < stop) : Covered ranges position := by
  rcases Bool.or_eq_true_iff.mp covers with empty | walked
  · have short := of_decide_eq_true empty
    omega
  · exact covered_of_coverFrom walked above below

/-! ## Merging -/

/-- In order, not empty, and with a gap between each range and the next. -/
structure Normal (ranges : List ByteRange) : Prop where
  apart : ranges.Pairwise (fun earlier later => earlier.stop < later.start)
  nonempty : ∀ range : ByteRange, range ∈ ranges -> range.start < range.stop

theorem normal_nil : Normal [] where
  apart := List.Pairwise.nil
  nonempty := by nofun

theorem Normal.tail {range : ByteRange} (normal : Normal (range :: ranges)) : Normal ranges where
  apart := normal.apart.of_cons
  nonempty := fun other within => normal.nonempty other (mem_cons_of_mem _ within)

/-- Absorbing ranges that are not entirely before the incoming one adds just the
incoming positions. -/
theorem covered_absorb (reach : ∀ range ∈ ranges, incoming.start <= range.stop)
    (nonempty : incoming.start < incoming.stop) : Covered (absorb incoming ranges) position <->
    incoming.Contains position \/ Covered ranges position := by
  induction ranges generalizing incoming with
  | nil => rw [absorb, covered_cons]
  | cons range rest ih =>
    rw [absorb]
    split
    · have first := reach range mem_cons_self
      rw [ih, covered_cons, <- or_assoc]
      · apply or_congr_left
        simp only [ByteRange.Contains]
        omega
      · intro other within
        exact Nat.le_trans (Nat.min_le_left _ _) (reach other (mem_cons_of_mem _ within))
      · show min incoming.start range.start < max incoming.stop range.stop
        omega
    · rw [covered_cons]

theorem start_of_mem_absorb {bound : Nat} (above : bound < incoming.start)
    (rest : ∀ range ∈ ranges, bound < range.start) :
    ∀ range ∈ absorb incoming ranges, bound < range.start := by
  induction ranges generalizing incoming with
  | nil =>
    intro range within
    rw [mem_singleton.mp within]
    exact above
  | cons head tail ih =>
    have first := rest head mem_cons_self
    rw [absorb]
    split
    · apply ih
      · exact Nat.lt_min.mpr ⟨above, first⟩
      · exact fun range within => rest range (mem_cons_of_mem _ within)
    · intro range within
      rcases mem_cons.mp within with rfl | later
      · exact above
      · exact rest range later

section
variable (normal : Normal ranges)
include normal

theorem normal_absorb (nonempty : incoming.start < incoming.stop) : Normal (absorb incoming ranges) := by
  induction ranges generalizing incoming with
  | nil =>
    refine ⟨pairwise_singleton _ _, ?_⟩
    intro range within
    rw [mem_singleton.mp within]
    exact nonempty
  | cons head tail ih =>
    rw [absorb]
    split
    · apply ih normal.tail
      show min incoming.start head.start < max incoming.stop head.stop
      omega
    rename_i far
    have gap : incoming.stop < head.start := Nat.lt_of_not_le far
    refine ⟨List.Pairwise.cons ?_ normal.apart, ?_⟩
    · intro later within
      rcases mem_cons.mp within with rfl | behind
      · exact gap
      · have apart := rel_of_pairwise_cons normal.apart behind
        have size := normal.nonempty head mem_cons_self
        omega
    · intro range within
      rcases mem_cons.mp within with rfl | behind
      · exact nonempty
      · exact normal.nonempty range behind

theorem Normal.stop_of_mem_dropWhile (start : Nat) : ∀ range : ByteRange,
    range ∈ ranges.dropWhile (fun range => range.stop < start) -> start <= range.stop := by
  induction ranges with
  | nil => nofun
  | cons head tail ih =>
    intro range within
    rw [dropWhile_cons] at within
    split at within
    · exact ih normal.tail range within
    rename_i stops
    have first : start <= head.stop := by simpa using stops
    rcases mem_cons.mp within with rfl | behind
    · exact first
    · have apart := rel_of_pairwise_cons normal.apart behind
      have size := normal.nonempty range (mem_cons_of_mem _ behind)
      omega

theorem Normal.sublist {fewer : List ByteRange} (sublist : fewer.Sublist ranges) : Normal fewer where
  apart := normal.apart.sublist sublist
  nonempty := fun range within => normal.nonempty range (sublist.subset within)

theorem covered_mergeReceivedRange (incoming : ByteRange) (position : Nat) :
    Covered (mergeReceivedRange ranges incoming) position <->
    incoming.Contains position \/ Covered ranges position := by
  rw [mergeReceivedRange]
  split
  · have never : ¬ incoming.Contains position := fun within => by
      rcases within with ⟨above, below⟩
      omega
    rw [or_iff_right never]
  next nonempty =>
    have parts : Covered ranges position <->
        Covered (ranges.takeWhile (fun range => range.stop < incoming.start) ++
          ranges.dropWhile (fun range => range.stop < incoming.start)) position := by
      rw [takeWhile_append_dropWhile]
    rw [parts, covered_append, covered_append,
      covered_absorb (normal.stop_of_mem_dropWhile incoming.start) (Nat.lt_of_not_le nonempty),
      or_left_comm]

theorem normal_mergeReceivedRange (incoming : ByteRange) : Normal (mergeReceivedRange ranges incoming) := by
  rw [mergeReceivedRange]
  split
  · exact normal
  rename_i nonempty
  have before := normal.sublist (takeWhile_sublist
    (fun range : ByteRange => decide (range.stop < incoming.start)))
  have behind := normal_absorb (normal.sublist (dropWhile_sublist
    (fun range : ByteRange => decide (range.stop < incoming.start)))) (Nat.lt_of_not_le nonempty)
  refine ⟨pairwise_append.mpr ⟨before.apart, behind.apart, ?_⟩, ?_⟩
  · intro earlier within later after
    have stops : earlier.stop < incoming.start := by simpa using mem_takeWhile_imp within
    refine start_of_mem_absorb stops ?_ later after
    intro range among
    have whole := normal.apart
    rw [<- takeWhile_append_dropWhile
      (p := fun range : ByteRange => decide (range.stop < incoming.start)) (l := ranges)] at whole
    exact (pairwise_append.mp whole).2.2 earlier within range among
  · intro range within
    rcases mem_append.mp within with early | late
    · exact before.nonempty range early
    · exact behind.nonempty range late

end

structure Ranges where
  list : List ByteRange
  normal : Normal list

namespace Ranges

def empty : Ranges where
  list := []
  normal := normal_nil

def insert (ranges : Ranges) (incoming : ByteRange) : Ranges where
  list := mergeReceivedRange ranges.list incoming
  normal := normal_mergeReceivedRange ranges.normal incoming

/-- One range that covers the first `length` positions. -/
def IsWhole (ranges : Ranges) (length : Nat) : Prop :=
  ranges.list = [{ start := 0, stop := length }]

instance (ranges : Ranges) (length : Nat) : Decidable (ranges.IsWhole length) :=
  inferInstanceAs (Decidable (_ = _))

def Covers (ranges : Ranges) (position : Nat) : Prop :=
  Covered ranges.list position

instance (ranges : Ranges) (position : Nat) : Decidable (ranges.Covers position) :=
  inferInstanceAs (Decidable (Covered _ _))

@[simp] theorem not_covers_empty (position : Nat) : ¬ empty.Covers position :=
  covered_nil position

theorem covers_insert (ranges : Ranges) (incoming : ByteRange) (position : Nat) :
    (ranges.insert incoming).Covers position <-> incoming.Contains position \/ ranges.Covers position :=
  covered_mergeReceivedRange ranges.normal incoming position

theorem IsWhole.covers {ranges : Ranges} {length : Nat} (whole : ranges.IsWhole length)
    (below : position < length) : ranges.Covers position := by
  rw [Covers, whole, covered_cons]
  exact .inl ⟨Nat.zero_le _, below⟩

end Ranges
end TorrentPlayer.Storage
