import Mathlib.Logic.Relation
import TorrentPlayer.Library.Machine

namespace TorrentPlayer.Library
namespace LockOrder

open List

/-!
# Threads that take their locks in order

A thread passes through places.  At each it holds some locks and may ask for
another, which nobody can take twice.  If what is asked for always ranks above
what is held, no threads wait for each other in a cycle.
-/

universe u v

structure Place (Lock : Type u) where
  held : List Lock
  asks : Option Lock

/-- A thread is the list of the places that are left, the first being where it stands. -/
abbrev Threads (Lock : Type u) := List (List (Place Lock))

/-- A thread starts a call, or passes on to its next place. -/
inductive Label (Call : Type v)
  | start (call : Call)
  | run (index : Nat)

variable {Lock : Type u} {Call : Type v}

def step [DecidableEq Lock] (program : Call -> List (Place Lock)) (threads : Threads Lock) :
    Label Call -> Option (Threads Lock)
  | .start call => some (threads ++ [program call])
  | .run index => threads[index]?.bind fun thread =>
    if (thread.head?.bind Place.asks).any (fun lock =>
      threads.any (fun other => other.head?.any (lock ∈ ·.held))) then none
    else some (threads.set index thread.tail)

def machine [DecidableEq Lock] (program : Call -> List (Place Lock)) :
    Machine (Threads Lock) (Label Call) where
  init threads := threads = []
  step := step program

def standsAt (threads : Threads Lock) (index : Nat) : Option (Place Lock) :=
  threads[index]?.bind List.head?

def Waits (threads : Threads Lock) (first second : Nat) : Prop :=
  Exists fun lock => (standsAt threads first).bind Place.asks = some lock /\
    Exists fun holder => standsAt threads second = some holder /\ lock ∈ holder.held

def Place.Climbs (rank : Lock -> Nat) (place : Place Lock) : Prop :=
  ∀ held ∈ place.held, ∀ lock, place.asks = some lock -> rank held < rank lock

def Climb (rank : Lock -> Nat) (threads : Threads Lock) : Prop :=
  ∀ thread ∈ threads, ∀ place ∈ thread, place.Climbs rank

variable {rank : Lock -> Nat} {threads : Threads Lock}

/-- Along a chain of waiting threads the locks asked for rank higher and higher. -/
theorem rank_lt_of_waits (climb : Climb rank threads) {first last : Nat}
    (chain : Relation.TransGen (Waits threads) first last) :
    Exists fun lock => (standsAt threads first).bind Place.asks = some lock /\
    ∀ other, (standsAt threads last).bind Place.asks = some other -> rank lock < rank other := by
  -- What a thread asks for ranks above what it holds.
  have above : ∀ {index : Nat} {holder lock other}, standsAt threads index = some holder ->
      lock ∈ holder.held -> (standsAt threads index).bind Place.asks = some other ->
      rank lock < rank other := by
    intro index holder lock other stands held asks
    rcases Option.bind_eq_some_iff.mp stands with ⟨thread, found, isHead⟩
    rw [stands] at asks
    exact climb thread (mem_of_getElem? found) holder (mem_of_head? isHead) lock held other asks
  induction chain with
  | single waits =>
    rcases waits with ⟨lock, asks, holder, stands, held⟩
    exact ⟨lock, asks, fun other => above stands held⟩
  | tail _ waits ih =>
    rcases ih with ⟨lock, asks, higher⟩
    rcases waits with ⟨between, isAsked, holder, stands, held⟩
    exact ⟨lock, asks, fun other isOther => Nat.lt_trans (higher between isAsked) (above stands held isOther)⟩

theorem not_waits_cycle [DecidableEq Lock] {program : Call -> List (Place Lock)}
    (climb : ∀ call place, place ∈ program call -> place.Climbs rank)
    {labels : List (Label Call)}
    (run : (machine program).RunsTo Machine.always labels threads) (index : Nat) :
    ¬ Relation.TransGen (Waits threads) index index := by
  have climbs : Climb rank threads := by
    refine run.stateInvariant ?_ ?_
    · rintro _ rfl
      nofun
    · intro threads label after invariant _ taken thread member
      cases label with
      | start call =>
        cases taken
        rcases mem_append.mp member with old | new
        · exact invariant thread old
        rw [mem_singleton.mp new]
        exact climb call
      | run =>
        rcases Option.bind_eq_some_iff.mp taken with ⟨before, found, moved⟩
        rcases Option.ite_none_left_eq_some.mp moved with ⟨_, ⟨⟩⟩
        rcases mem_or_eq_of_mem_set member with old | rfl
        · exact invariant thread old
        intro place ahead
        exact invariant before (mem_of_getElem? found) place (mem_of_mem_tail ahead)
  intro cycle
  rcases rank_lt_of_waits climbs cycle with ⟨lock, asks, higher⟩
  exact Nat.lt_irrefl _ (higher lock asks)

/-- A guard under which others are taken and dropped, one after the other. -/
structure Scope (Lock : Type u) where
  lock : Lock
  inner : List Lock

def Scope.places (scope : Scope Lock) : List (Place Lock) :=
  ⟨[], some scope.lock⟩ :: scope.inner.flatMap (fun lock =>
    [⟨[scope.lock], some lock⟩, ⟨[lock, scope.lock], none⟩]) ++ [⟨[scope.lock], none⟩]

theorem climbs_places {scope : Scope Lock} (ordered : ∀ lock ∈ scope.inner, rank scope.lock < rank lock)
    (place : Place Lock) (member : place ∈ scope.places) : place.Climbs rank := by
  simp only [Scope.places, mem_cons, mem_append, mem_flatMap, not_mem_nil, or_false] at member
  rcases member with (rfl | ⟨lock, isInner, rfl | rfl⟩) | rfl
  · nofun
  · exact forall_mem_singleton.mpr fun _ same => Option.some.inj same ▸ ordered lock isInner
  · nofun
  · nofun

end LockOrder
end TorrentPlayer.Library
