import Mathlib.Data.Finset.Basic
import Mathlib.Data.Finset.SDiff
import Mathlib.Data.List.Induction

namespace TorrentPlayer.Library

open List

/-!
# Logs of insertions and removals

A log lists the keys that entered and left a set, in order.  A reader that
takes the log window by window need not be told every change: inside a window
an insertion and a later removal of the same key cancel, and what remains is
the difference between the set before and the set after.

The cancellation is right only for a log that alternates, where a key is
inserted while it is absent and removed while it is present.  `follow` runs a
log for one key and fails at the first change that does not alternate.
-/

universe u

/-- One entry of a log. -/
inductive Change (K : Type u) where
  | insert (key : K)
  | remove (key : K)

namespace Change

variable {K : Type u}

def key : Change K -> K
  | .insert key | .remove key => key

def isRemove : Change K -> Bool
  | .insert _ => false
  | .remove _ => true

end Change

variable {K : Type u} [DecidableEq K]

/-! ## Following one key -/

/-- Whether a key is present after a log, from whether it was before.  There
is no answer when an insertion meets a present key or a removal an absent
one. -/
def follow (key : K) : Bool -> List (Change K) -> Option Bool
  | present, [] => some present
  | present, change :: rest =>
    if change.key = key then
      if change.isRemove = present then follow key (!present) rest else none
    else follow key present rest

theorem follow_append (key : K) (earlier later : List (Change K)) (present : Bool) :
    follow key present (earlier ++ later) =
    (follow key present earlier).bind (fun between => follow key between later) := by
  induction earlier generalizing present with
  | nil => rfl
  | cons change rest ih =>
    simp only [cons_append, follow]
    split
    · split
      · exact ih _
      · rfl
    · exact ih _

variable {changes : List (Change K)} {key : K}

theorem follow_of_ne (others : ∀ change ∈ changes, change.key ≠ key) (present : Bool) :
    follow key present changes = some present := by
  induction changes with
  | nil => rfl
  | cons change rest ih =>
    rw [follow, if_neg (others change mem_cons_self)]
    exact ih (fun other member => others other (mem_cons_of_mem _ member))

theorem follow_singleton (key : K) (present : Bool) (change : Change K) :
    follow key present [change] = if change.key = key then
        if change.isRemove = present then some (!present) else none else some present := rfl

variable {change : Change K}

theorem follow_insert_change (key : K) (present : Bool) (earlier later : List (Change K))
    (others : ∀ other ∈ later, other.key ≠ change.key) : follow key present (earlier ++ [change] ++ later) =
    (follow key present (earlier ++ later)).bind (fun between => follow key between [change]) := by
  rw [append_assoc, follow_append, follow_append key earlier later, Option.bind_assoc]
  congr 1
  funext between
  rw [follow_append]
  by_cases same : change.key = key
  · rw [same] at others
    rw [follow_of_ne others, Option.bind_some]
    cases follow key between [change] with
    | none => rfl
    | some after => exact follow_of_ne others after
  · have skipped : ∀ before, follow key before [change] = some before := by
      intro before
      rw [follow_singleton, if_neg same]
    rw [skipped, Option.bind_some]
    cases follow key between later with
    | none => rfl
    | some after => exact (skipped after).symm

theorem follow_insert_mem (key : K) {added : K} {set : Finset K} (absent : added ∉ set) :
    follow key (decide (key ∈ set)) [.insert added] = some (decide (key ∈ insert added set)) := by
  rw [follow_singleton]
  by_cases same : added = key
  · subst same
    simp [Change.key, Change.isRemove, absent]
  · simp [Change.key, same, Ne.symm same]

theorem follow_remove_mem (key : K) {removed : K} {set : Finset K} (present : removed ∈ set) :
    follow key (decide (key ∈ set)) [.remove removed] = some (decide (key ∈ set.erase removed)) := by
  rw [follow_singleton]
  by_cases same : removed = key
  · subst same
    simp [Change.key, Change.isRemove, present]
  · simp [Change.key, same, Ne.symm same]

variable {after : Bool}

theorem follow_removes_absent (removes : ∀ change ∈ changes, change.isRemove = true)
    (followed : follow key false changes = some after) : after = false := by
  induction changes with
  | nil => exact (Option.some.inj followed).symm
  | cons change rest ih =>
    have removal := removes change mem_cons_self
    rw [follow, removal] at followed
    split at followed
    · rw [if_neg Bool.noConfusion] at followed
      cases followed
    · exact ih (fun other member => removes other (mem_cons_of_mem _ member)) followed

theorem ne_of_follow_removes (removes : ∀ change ∈ changes, change.isRemove = true) {before : Bool}
    (followed : follow key before changes = some true) : ∀ change ∈ changes, change.key ≠ key := by
  induction changes generalizing before with
  | nil => nofun
  | cons change rest ih =>
    have removal := removes change mem_cons_self
    have restRemoves : ∀ other ∈ rest, other.isRemove = true :=
      fun other member => removes other (mem_cons_of_mem _ member)
    rw [follow, removal] at followed
    split at followed
    · split at followed
      · rename_i present
        rw [<- present] at followed
        exact absurd (follow_removes_absent restRemoves followed) Bool.noConfusion
      · cases followed
    next differs =>
      intro other member
      rcases mem_cons.mp member with rfl | inRest
      · exact differs
      · exact ih restRemoves followed other inRest

/-- The keys a window adds and the keys it drops, opposite changes cancelled. -/
structure Delta (K : Type u) where
  added : Finset K
  dropped : Finset K

namespace Delta

def empty : Delta K := ⟨∅, ∅⟩

/-- Take up one more change. -/
def append (delta : Delta K) : Change K -> Delta K
  | .insert key =>
    if key ∈ delta.added then delta
    else if key ∈ delta.dropped then { delta with dropped := delta.dropped.erase key }
    else { delta with added := insert key delta.added }
  | .remove key =>
    if key ∈ delta.dropped then delta
    else if key ∈ delta.added then { delta with added := delta.added.erase key }
    else { delta with dropped := insert key delta.dropped }

def collect (changes : List (Change K)) : Delta K :=
  changes.foldl append empty

/-- Bring a copy of the set up to date. -/
def apply (delta : Delta K) (view : Finset K) : Finset K :=
  (view ∪ delta.added) \ delta.dropped

/-- What a delta says of one key whose presence went from `before` to
`after`. -/
structure Tells (delta : Delta K) (key : K) (before after : Bool) : Prop where
  added : key ∈ delta.added <-> before = false /\ after = true
  dropped : key ∈ delta.dropped <-> before = true /\ after = false

omit [DecidableEq K] in
theorem tells_empty (key : K) (present : Bool) : (empty : Delta K).Tells key present present := by
  constructor <;> cases present <;> simp [empty]

theorem mem_append_of_ne (delta : Delta K)
    (differs : key ≠ change.key) : (key ∈ (delta.append change).added <-> key ∈ delta.added) /\
    (key ∈ (delta.append change).dropped <-> key ∈ delta.dropped) := by
  cases change with
  | insert other | remove other =>
    have differs : key ≠ other := differs
    rw [append]
    split
    · exact ⟨Iff.rfl, Iff.rfl⟩
    · split <;> simp [differs]

theorem Tells.append {delta : Delta K} {before between : Bool} (tells : delta.Tells key before between)
    (followed : follow key between [change] = some after) :
    (delta.append change).Tells key before after := by
  rw [follow_singleton] at followed
  by_cases same : change.key = key
  case neg =>
    rw [if_neg same] at followed
    have unchanged : between = after := Option.some.inj followed
    have others := delta.mem_append_of_ne (Ne.symm same)
    rw [<- unchanged]
    exact ⟨others.1.trans tells.added, others.2.trans tells.dropped⟩
  rw [if_pos same] at followed
  split at followed
  case isFalse => cases followed
  rename_i alternates
  have toggled : (!between) = after := Option.some.inj followed
  subst toggled
  -- An insertion meets an absent key, so the key is not among the added ones;
  -- it is among the dropped ones exactly when it was there before the window.
  cases change with
  | insert other =>
    have absent : false = between := alternates
    have here : other = key := same
    subst absent here
    have notAdded : other ∉ delta.added := by simp [tells.added]
    rw [Delta.append]
    cases before <;> constructor <;> simp [tells.dropped, notAdded]
  | remove other =>
    have present : true = between := alternates
    have here : other = key := same
    subst present here
    have notDropped : other ∉ delta.dropped := by simp [tells.dropped]
    rw [Delta.append]
    cases before <;> constructor <;> simp [tells.added, notDropped]

theorem tells_collect {before : Bool} (followed : follow key before changes = some after) :
    (collect changes).Tells key before after := by
  induction changes using List.reverseRecOn generalizing after with
  | nil =>
    have same : before = after := Option.some.inj followed
    subst same
    exact tells_empty key before
  | append_singleton earlier change ih =>
    rw [follow_append] at followed
    rcases Option.bind_eq_some_iff.mp followed with ⟨between, first, last⟩
    rw [collect, foldl_append]
    exact (ih first).append last

theorem mem_apply_collect {view : Finset K}
    (followed : follow key (decide (key ∈ view)) changes = some after) :
    key ∈ (collect changes).apply view <-> after = true := by
  have tells := tells_collect followed
  rw [apply, Finset.mem_sdiff, Finset.mem_union, tells.added, tells.dropped]
  by_cases present : key ∈ view <;> cases after <;> simp [present]

end Delta
end TorrentPlayer.Library
