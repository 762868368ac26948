import Mathlib.Data.List.Count
import Mathlib.Tactic.Ring

namespace TorrentPlayer.Library

open List

/-!
# Tallies

The number of members of a list that satisfy a test, as an integer, and how it
changes when one member is replaced, added or removed.  A counter that is kept
by adding and subtracting is compared with such a tally.
-/

universe u v

def indicator (counts : Bool) : Int :=
  if counts then 1 else 0

@[simp] theorem indicator_false : indicator false = 0 :=
  rfl

def tally {Item : Type u} (test : Item -> Bool) : List Item -> Int
  | [] => 0
  | item :: items => indicator (test item) + tally test items

section
variable {Item : Type u} {Other : Type v}
variable (test : Item -> Bool) {items : List Item} {i : Nat} {old : Item}

@[simp] theorem tally_nil : tally test [] = 0 :=
  rfl

@[simp] theorem tally_cons (item : Item) (items : List Item) :
    tally test (item :: items) = indicator (test item) + tally test items :=
  rfl

theorem tally_append (front back : List Item) :
    tally test (front ++ back) = tally test front + tally test back := by
  induction front with
  | nil => simp
  | cons item front ih =>
    rw [cons_append, tally_cons, tally_cons, ih]
    ring

theorem tally_map (change : Other -> Item) (items : List Other) :
    tally test (items.map change) = tally (fun item => test (change item)) items := by
  induction items with
  | nil => rfl
  | cons item items ih => rw [map_cons, tally_cons, tally_cons, ih]

/-- Replacing a member moves its contribution. -/
theorem tally_set (found : items[i]? = some old) (new : Item) : tally test (items.set i new) =
    tally test items - indicator (test old) + indicator (test new) := by
  induction items generalizing i with
  | nil => cases found
  | cons item items ih =>
    cases i with
    | zero =>
      cases found
      rw [set_cons_zero, tally_cons, tally_cons]
      ring
    | succ i =>
      rw [set_cons_succ, tally_cons, tally_cons, ih (by simpa using found)]
      ring

/-- Removing a member removes its contribution. -/
theorem tally_eraseIdx (found : items[i]? = some old) :
    tally test (items.eraseIdx i) = tally test items - indicator (test old) := by
  induction items generalizing i with
  | nil => cases found
  | cons item items ih =>
    cases i with
    | zero =>
      cases found
      rw [eraseIdx_cons_zero, tally_cons]
      ring
    | succ i =>
      rw [eraseIdx_cons_succ, tally_cons, tally_cons, ih (by simpa using found)]
      ring

theorem tally_eq_of_agree {test : Item -> Bool} {otherTest : Other -> Bool} :
    ∀ {items : List Item} {others : List Other}, items.length = others.length ->
      (∀ (i : Nat) (item : Item) (other : Other), items[i]? = some item ->
        others[i]? = some other -> test item = otherTest other) ->
      tally test items = tally otherTest others
  | [], [], _, _ => rfl
  | [], _ :: _, same, _ | _ :: _, [], same, _ => by cases same
  | item :: items, other :: others, same, agree => by
      rw [tally_cons, tally_cons, agree 0 item other rfl rfl]
      congr 1
      refine tally_eq_of_agree (Nat.succ.inj same) fun i a b first second => ?_
      exact agree (i + 1) a b (by simpa using first) (by simpa using second)

theorem tally_congr {test otherTest : Item -> Bool} {items : List Item}
    (agree : ∀ item ∈ items, test item = otherTest item) : tally test items = tally otherTest items :=
  tally_eq_of_agree rfl fun i item other first second => by
    have same : item = other := Option.some.inj (first.symm.trans second)
    rw [<- same]
    exact agree item (mem_of_getElem? first)

end
end TorrentPlayer.Library
