import TorrentPlayer.Library.FiniteMaps

namespace TorrentPlayer.Library

open FiniteMap

/-!
# Tasks that hold a flag

Tasks share a flag that one of them sets while it does something alone.  A task
takes the flag only when it is unset, and unsets it when it is done.
-/

universe u

structure Guarded {Task : Type u} (holds : Task -> Prop) (flag : Bool)
    (tasks : FiniteMap Nat Task) : Prop where
  once : ∀ {id other : Nat} {task another : Task}, tasks.lookup id = some task ->
    tasks.lookup other = some another -> holds task -> holds another -> id = other
  unset : flag = false -> ∀ {id : Nat} {task : Task}, tasks.lookup id = some task -> ¬ holds task

namespace Guarded

variable {Task : Type u} {holds : Task -> Prop} {flag : Bool} {tasks : FiniteMap Nat Task}
variable {id : Nat} {task next : Task}

theorem empty (flag : Bool) : Guarded holds flag (∅ : FiniteMap Nat Task) where
  once found := by cases found
  unset _ _ _ found := by cases found

theorem take (guarded : Guarded holds false tasks) (id : Nat) (next : Task) :
    Guarded holds true (tasks.insert id next) where
  once := by
    have only : ∀ {name : Nat} {held : Task},
        (AList.insert id next tasks).lookup name = some held -> holds held -> name = id := by
      intro name held found holding
      rw [lookup_insert_eq] at found
      split at found
      next same => exact same.symm
      · exact absurd holding (guarded.unset rfl found)
    intro name other held another found there holding holdingToo
    rw [only found holding, only there holdingToo]
  unset never := by cases never

section
variable (guarded : Guarded holds flag tasks)
include guarded

theorem goOn (kept : holds next -> Exists fun task => tasks.lookup id = some task /\ holds task) :
    Guarded holds flag (tasks.insert id next) := by
  -- A holder afterwards was one before under the same name.
  have before : ∀ {name : Nat} {held : Task},
      (AList.insert id next tasks).lookup name = some held -> holds held ->
        Exists fun task => tasks.lookup name = some task /\ holds task := by
    intro name held found holding
    rw [lookup_insert_eq] at found
    split at found
    next same =>
      cases found
      rw [<- same]
      exact kept holding
    · exact ⟨held, found, holding⟩
  constructor
  · intro name other held another found there holding holdingToo
    rcases before found holding with ⟨_, first, one⟩
    rcases before there holdingToo with ⟨_, second, two⟩
    exact guarded.once first second one two
  · intro isUnset name held found holding
    rcases before found holding with ⟨_, first, one⟩
    exact guarded.unset isUnset first one

theorem leave (id : Nat) : Guarded holds flag (tasks.erase id) :=
  ⟨fun found there => guarded.once (lookup_of_erase found) (lookup_of_erase there),
    fun isUnset _ _ found => guarded.unset isUnset (lookup_of_erase found)⟩

theorem release (found : tasks.lookup id = some task)
    (holding : holds task) : Guarded holds false (tasks.erase id) := by
  refine ⟨(guarded.leave id).once, ?_⟩
  intro _ name held there heldToo
  rw [lookup_erase_eq] at there
  split at there
  · cases there
  next differs => exact differs (guarded.once found there holding heldToo)

theorem pass (found : tasks.lookup id = some task)
    (holding : holds task) (free : ¬ holds next) : Guarded holds false (tasks.insert id next) := by
  refine ⟨(guarded.goOn (fun held => absurd held free)).once, ?_⟩
  intro _ name held there heldToo
  rw [lookup_insert_eq] at there
  split at there
  · cases there
    exact free heldToo
  next differs => exact differs (guarded.once found there holding heldToo)

end
end Guarded
end TorrentPlayer.Library
