import TorrentPlayer.Library.Machine
import TorrentPlayer.Library.Tallies

namespace TorrentPlayer.Library

/-!
# Calls on a shared state

Calls that are under way take their steps in any order.  A step reads and changes
the shared state and leaves the call at its next place.  What is to hold of a call
at its place must survive the steps of the others.
-/

universe u v

structure Calls (Shared : Type u) (Call : Type v) where
  shared : Shared
  calls : List Call := []

namespace Calls

variable {Shared : Type u} {Call : Type v}

inductive Label (Call : Type v)
  | start (call : Call)
  | run (index : Nat)

def step (begins : Call -> Bool) (advance : Shared -> Call -> Option (Shared × Call))
    (state : Calls Shared Call) : Label Call -> Option (Calls Shared Call)
  | .start call => if begins call then some { state with calls := state.calls ++ [call] } else none
  | .run index => state.calls[index]?.bind fun call =>
    (advance state.shared call).map fun after => ⟨after.1, state.calls.set index after.2⟩

def machine (initial : Shared) (begins : Call -> Bool)
    (advance : Shared -> Call -> Option (Shared × Call)) :
    Machine (Calls Shared Call) (Label Call) where
  init state := state = { shared := initial }
  step := step begins advance

def Alone (acts waits : Call -> Bool) (state : Calls Shared Call) : Label Call -> Prop
  | .start _ => True
  | .run index => state.calls[index]?.any acts = true ->
    ∀ other ∈ state.calls.eraseIdx index, waits other = false

instance (acts waits : Call -> Bool) (state : Calls Shared Call) :
    ∀ label, Decidable (Alone acts waits state label)
  | .start _ => isTrue trivial
  | .run _ => inferInstanceAs (Decidable (_ -> _))

variable {initial : Shared} {begins : Call -> Bool} {advance : Shared -> Call -> Option (Shared × Call)}
  {acts waits : Call -> Bool}

/-- Something holds of the shared state, and of every call at its place. -/
structure Holds (common : Shared -> Prop) (place : Shared -> Call -> Prop)
    (state : Calls Shared Call) : Prop where
  shared : common state.shared
  calls : ∀ call ∈ state.calls, place state.shared call

/-- A step is to establish what holds at the next place, and to keep what holds of the
others, none of which waits when it acts. -/
theorem holds_of_run {common : Shared -> Prop} {place : Shared -> Call -> Prop}
    {permitted : Calls Shared Call -> Label Call -> Prop}
    (alone : ∀ state label, permitted state label -> Alone acts waits state label)
    (initially : common initial)
    (start : ∀ state call, permitted state (.start call) -> common state.shared ->
      begins call = true -> place state.shared call)
    (goOn : ∀ state index call after next, permitted state (.run index) ->
      state.calls[index]? = some call -> common state.shared -> place state.shared call ->
      advance state.shared call = some (after, next) -> common after /\ place after next /\
      ∀ other, place state.shared other -> (acts call = true -> waits other = false) ->
        place after other)
    {labels : List (Label Call)} {state : Calls Shared Call}
    (run : (machine initial begins advance).RunsTo permitted labels state) :
    Holds common place state := by
  refine run.stateInvariant ?_ ?_
  · rintro _ rfl
    exact ⟨initially, nofun⟩
  · intro state label after holds allowed taken
    cases label with
    | start call =>
      rcases Option.ite_none_right_eq_some.mp taken with ⟨may, ⟨⟩⟩
      refine ⟨holds.shared, List.forall_mem_append.mpr ⟨holds.calls, ?_⟩⟩
      exact List.forall_mem_singleton.mpr (start state call allowed holds.shared may)
    | run index =>
      rcases Option.bind_eq_some_iff.mp taken with ⟨call, found, moved⟩
      rcases Option.map_eq_some_iff.mp moved with ⟨⟨shared, next⟩, advanced, rfl⟩
      have member := List.mem_of_getElem? found
      rcases goOn state index call shared next allowed found holds.shared (holds.calls call member)
        advanced with ⟨common, here, others⟩
      refine ⟨common, fun other isOther => ?_⟩
      have alone : acts call = true -> ∀ other ∈ state.calls.eraseIdx index,
          waits other = false := by
        intro acting
        apply alone _ _ allowed
        rw [found]
        exact acting
      have inside := (List.getElem?_eq_some_iff.mp found).1
      rw [List.set_eq_take_append_cons_drop, if_pos inside] at isOther
      rw [List.eraseIdx_eq_take_drop_succ] at alone
      rcases List.mem_append.mp isOther with first | last
      · exact others other (holds.calls other (List.mem_of_mem_take first))
          fun acting => alone acting other (List.mem_append_left _ first)
      · rcases List.mem_cons.mp last with rfl | behind
        · exact here
        exact others other (holds.calls other (List.mem_of_mem_drop behind))
          fun acting => alone acting other (List.mem_append_right _ behind)

/-- What is kept in the shared state and held by calls is as much as calls gave, if
every step balances. -/
theorem tally_of_run (kept : Shared -> Int) (holds gave : Call -> Bool) (initially : kept initial = 0)
    (start : ∀ call, begins call = true -> holds call = false /\ gave call = false)
    (goOn : ∀ shared call after next, advance shared call = some (after, next) ->
      kept after + indicator (holds next) - indicator (gave next) =
      kept shared + indicator (holds call) - indicator (gave call))
    {permitted : Calls Shared Call -> Label Call -> Prop} {labels : List (Label Call)}
    {state : Calls Shared Call}
    (run : (machine initial begins advance).RunsTo permitted labels state) :
    kept state.shared + tally holds state.calls = tally gave state.calls := by
  refine run.stateInvariant (motive := fun state =>
    kept state.shared + tally holds state.calls = tally gave state.calls) ?_ ?_
  · rintro _ rfl
    rw [initially]
    rfl
  · intro state label after balanced _ taken
    cases label with
    | start call =>
      rcases Option.ite_none_right_eq_some.mp taken with ⟨may, ⟨⟩⟩
      rcases start call may with ⟨empty, nothing⟩
      simpa [tally_append, empty, nothing] using balanced
    | run index =>
      rcases Option.bind_eq_some_iff.mp taken with ⟨call, found, moved⟩
      rcases Option.map_eq_some_iff.mp moved with ⟨⟨shared, next⟩, advanced, rfl⟩
      have moves := goOn _ call shared next advanced
      dsimp only
      rw [tally_set _ found, tally_set _ found]
      omega

end Calls
end TorrentPlayer.Library
