import Mathlib.Data.List.Basic
import Mathlib.Tactic.Ring

namespace TorrentPlayer.Library

open List

/-!
# Ordered maps

A map as the list of its entries in increasing order of their keys.  Insertion puts
an entry in its place and replaces the entry that had the key before.
-/

section
variable {K V : Type} [LT K]

/-- The keys stand in strictly increasing order, so no key stands twice. -/
def KeysIncreasing (entries : List (K × V)) : Prop :=
  entries.Pairwise (fun first second => first.1 < second.1)

instance [DecidableLT K] (entries : List (K × V)) : Decidable (KeysIncreasing entries) :=
  inferInstanceAs (Decidable (entries.Pairwise _))

variable [DecidableLT K] [DecidableEq K]

def insertEntry : List (K × V) -> K -> V -> List (K × V)
  | [], key, value => [(key, value)]
  | (held, kept) :: entries, key, value =>
    if key < held then
      (key, value) :: (held, kept) :: entries
    else if key = held then
      (key, value) :: entries
    else
      (held, kept) :: insertEntry entries key value

/-- Entries inserted one after the other, so that the last one of a key counts. -/
def insertAll (entries added : List (K × V)) : List (K × V) :=
  added.foldl (fun entries entry => insertEntry entries entry.1 entry.2) entries

theorem lookup_insertEntry [BEq K] [LawfulBEq K] (entries : List (K × V)) (key other : K)
    (value : V) : (insertEntry entries key value).lookup other =
    if other = key then some value else entries.lookup other := by
  induction entries with
  | nil => grind [insertEntry]
  | cons entry =>
    rcases entry with ⟨_, _⟩
    rw [insertEntry]
    split
    · grind
    split
    · grind
    · grind

theorem lookup_insertAll [BEq K] [LawfulBEq K] (entries added : List (K × V)) (key : K) :
    (insertAll entries added).lookup key = (added.reverse.lookup key).or (entries.lookup key) := by
  induction added generalizing entries with
  | nil => rfl
  | cons entry added ih =>
    rcases entry with ⟨name, _⟩
    rw [insertAll, foldl_cons, <- insertAll, ih, lookup_insertEntry, reverse_cons, lookup_append]
    by_cases same : key = name
    · simp [same]
    have other : (key == name) = false := by simpa using same
    simp [same, other, lookup_cons]

variable {entries : List (K × V)}

theorem mem_insertEntry {key : K} {value : V} {entry : K × V}
    (member : entry ∈ insertEntry entries key value) : entry = (key, value) \/ entry ∈ entries := by
  induction entries with
  | nil => exact .inl (mem_singleton.mp member)
  | cons first entries ih =>
    rcases first with ⟨_, kept⟩
    rw [insertEntry] at member
    split at member
    · exact mem_cons.mp member
    split at member
    · rcases mem_cons.mp member with new | old
      · exact .inl new
      · exact .inr (mem_cons_of_mem _ old)
    · rcases mem_cons.mp member with kept | later
      · exact .inr (mem_cons.mpr (Or.inl kept))
      rcases ih later with new | old
      · exact .inl new
      · exact .inr (mem_cons_of_mem _ old)

variable [Std.Irrefl (α := K) (· < ·)] [Trans (α := K) (· < ·) (· < ·) (· < ·)]
  [Std.Trichotomous (α := K) (· < ·)]

omit [DecidableLT K] [DecidableEq K] [Std.Irrefl (α := K) (· < ·)]
    [Trans (α := K) (· < ·) (· < ·) (· < ·)] in
theorem lt_of_not_lt_of_ne {first second : K} (notAfter : ¬ first < second)
    (differ : first ≠ second) : second < first := by
  by_contra notBefore
  exact differ (Std.Trichotomous.trichotomous first second notAfter notBefore)

omit [Std.Irrefl (α := K) (· < ·)] in
theorem keysIncreasing_insertEntry (increasing : KeysIncreasing entries)
    (key : K) (value : V) : KeysIncreasing (insertEntry entries key value) := by
  induction entries with
  | nil => exact pairwise_singleton _ _
  | cons first entries ih =>
    rcases first with ⟨_, _⟩
    rcases pairwise_cons.mp increasing with ⟨before, rest⟩
    rw [insertEntry]
    split
    next earlier =>
      refine pairwise_cons.mpr ⟨?_, increasing⟩
      intro entry member
      rcases mem_cons.mp member with rfl | later
      · exact earlier
      · exact Trans.trans earlier (before entry later)
    next notEarlier =>
      split
      next same =>
        refine pairwise_cons.mpr ⟨?_, rest⟩
        intro entry member
        rw [same]
        exact before entry member
      next differ =>
        refine pairwise_cons.mpr ⟨?_, ih rest⟩
        intro entry member
        rcases mem_insertEntry member with new | old
        · rw [new]
          exact lt_of_not_lt_of_ne notEarlier differ
        · exact before entry old

omit [Std.Irrefl (α := K) (· < ·)] in
theorem keysIncreasing_insertAll (increasing : KeysIncreasing entries)
    (added : List (K × V)) : KeysIncreasing (insertAll entries added) := by
  induction added generalizing entries with
  | nil => exact increasing
  | cons entry added ih => exact ih (keysIncreasing_insertEntry increasing entry.1 entry.2)

omit [Std.Trichotomous (α := K) (· < ·)] in
theorem insertEntry_above {key : K} (value : V) (above : ∀ entry ∈ entries, entry.1 < key) :
    insertEntry entries key value = entries ++ [(key, value)] := by
  induction entries with
  | nil => rfl
  | cons first entries ih =>
    rcases first with ⟨held, kept⟩
    have below : held < key := above (held, kept) (mem_cons.mpr (Or.inl rfl))
    have notBefore : ¬ key < held := by
      intro before
      exact Std.Irrefl.irrefl held (Trans.trans below before)
    have differ : key ≠ held := by
      intro same
      rw [same] at below
      exact Std.Irrefl.irrefl held below
    rw [insertEntry, if_neg notBefore, if_neg differ,
      ih (fun entry member => above entry (mem_cons_of_mem _ member)), cons_append]

omit [Std.Trichotomous (α := K) (· < ·)] in
theorem insertAll_of_keysIncreasing {entries added : List (K × V)}
    (increasing : KeysIncreasing (entries ++ added)) : insertAll entries added = entries ++ added := by
  induction added generalizing entries with
  | nil => exact (append_nil entries).symm
  | cons entry added ih =>
    have above : ∀ held ∈ entries, held.1 < entry.1 := by
      intro held member
      exact (pairwise_append.mp increasing).2.2 held member entry (mem_cons.mpr (Or.inl rfl))
    have regrouped : entries ++ entry :: added = (entries ++ [entry]) ++ added := by simp
    rw [insertAll, foldl_cons, insertEntry_above entry.2 above, regrouped]
    rw [regrouped] at increasing
    exact ih increasing

omit [Std.Trichotomous (α := K) (· < ·)] in
/-- Entries in order make up the map themselves. -/
theorem insertAll_nil {added : List (K × V)} (increasing : KeysIncreasing added) :
    insertAll [] added = added :=
  insertAll_of_keysIncreasing increasing

end
end TorrentPlayer.Library
