import TorrentPlayer.Library.Calls

namespace TorrentPlayer.Engine
namespace PreviewReader

open Library Calls

/-!
# The demand of a closed preview

A read of a preview checks that the reader is open, admits pieces and publishes
its demand in separate steps.  The hook of `close` clears the demand between them.
-/

/-- The reader, and the preview demand of its torrent's coordinator. -/
structure Shared where
  closed : Bool := false
  admitted : List Nat := []
  demand : List Nat := []
  /-- The hook of `close` has run. -/
  hooked : Bool := false

/-- The pieces that a read admits, unless it is refused, and those that are complete
when it looks. -/
structure Read where
  pieces : Option (List Nat)
  complete : Nat -> Bool

/-- The next step of a read or a close. -/
inductive Call
  | readAt (read : Read)
  | admitRange (read : Read)
  | admitPreviewRange (read : Read)
  | collect (read : Read)
  | setPreviewDemand (demand : List Nat)
  | close
  | closeHook
  | clearAdmitted
  | closed
  | returned

def begins : Call -> Bool
  | .readAt _ | .close => true
  | _ => false

def advance (shared : Shared) : Call -> Option (Shared × Call)
  | .readAt read => some (shared, if shared.closed then .returned else .admitRange read)
  | .admitRange read =>
    some (shared, if shared.closed then .returned else .admitPreviewRange read)
  | .admitPreviewRange ⟨none, _⟩ => some (shared, .returned)
  | .admitPreviewRange ⟨some pieces, complete⟩ =>
    some ({ shared with admitted := shared.admitted ++ pieces }, .collect ⟨pieces, complete⟩)
  | .collect read =>
    some (shared, .setPreviewDemand (shared.admitted.filter fun piece => !read.complete piece))
  | .setPreviewDemand demand => some ({ shared with demand := demand }, .returned)
  | .close =>
    some ({ shared with closed := true }, if shared.closed then .returned else .closeHook)
  | .closeHook => some ({ shared with demand := [], hooked := true }, .clearAdmitted)
  | .clearAdmitted => some ({ shared with admitted := [] }, .closed)
  | .closed | .returned => none

abbrev machine : Machine (Calls Shared Call) (Label Call) :=
  Calls.machine {} begins advance

/-- A read has found the reader open for the last time and is still to publish. -/
def Call.publishing : Call -> Bool
  | .admitPreviewRange _ | .collect _ | .setPreviewDemand _ => true
  | _ => false

structure Cleared (shared : Shared) : Prop where
  closed : shared.hooked = true -> shared.closed = true
  demand : shared.hooked = true -> shared.demand = []

structure Placed (shared : Shared) (call : Call) : Prop where
  reading : call.publishing = true -> shared.hooked = false
  closing : call = .closeHook -> shared.closed = true
  hooked : call = .clearAdmitted ∨ call = .closed -> shared.hooked = true

theorem Placed.keep {shared after : Shared} {call : Call} (placed : Placed shared call)
    (closed : shared.closed = true -> after.closed = true)
    (hooked : after.hooked = shared.hooked) : Placed after call :=
  ⟨hooked ▸ placed.reading, fun isHook => closed (placed.closing isHook), hooked ▸ placed.hooked⟩

/-- No read is about to publish when the hook runs. -/
theorem Placed.advance {shared after : Shared} {call next : Call} (placed : Placed shared call)
    (cleared : Cleared shared) (taken : advance shared call = some (after, next)) :
    Cleared after /\ Placed after next /\ ∀ other, Placed shared other ->
    ((· matches .closeHook) call = true -> other.publishing = false) -> Placed after other := by
  -- A read that finds the reader open does so before the hook.
  have before : shared.closed = false -> shared.hooked = false := by
    intro isOpen
    cases ran : shared.hooked with
    | false => rfl
    | true => exact (cleared.closed ran).symm.trans isOpen
  cases call with
  | readAt | admitRange =>
    cases taken
    refine ⟨cleared, ?_, fun _ other _ => other⟩
    split
    · exact ⟨nofun, nofun, nofun⟩
    next isOpen => exact ⟨fun _ => before (Bool.not_eq_true _ ▸ isOpen), nofun, nofun⟩
  | admitPreviewRange read =>
    rcases read with ⟨_ | _, _⟩ <;> cases taken
    · exact ⟨cleared, ⟨nofun, nofun, nofun⟩, fun _ other _ => other⟩
    exact ⟨⟨cleared.closed, cleared.demand⟩, ⟨placed.reading, nofun, nofun⟩,
      fun _ other _ => other.keep id rfl⟩
  | collect =>
    cases taken
    exact ⟨cleared, ⟨placed.reading, nofun, nofun⟩, fun _ other _ => other⟩
  | setPreviewDemand =>
    cases taken
    refine ⟨⟨cleared.closed, fun ran => ?_⟩, ⟨nofun, nofun, nofun⟩, fun _ other _ => other.keep id rfl⟩
    cases (placed.reading rfl).symm.trans ran
  | close =>
    cases taken
    refine ⟨⟨fun _ => rfl, cleared.demand⟩, ?_, fun _ other _ => other.keep (fun _ => rfl) rfl⟩
    split
    · exact ⟨nofun, nofun, nofun⟩
    · exact ⟨nofun, fun _ => rfl, nofun⟩
  | closeHook =>
    cases taken
    refine ⟨⟨fun _ => placed.closing rfl, fun _ => rfl⟩, ⟨nofun, nofun, fun _ => rfl⟩, ?_⟩
    intro other stands quiet
    refine ⟨fun reads => ?_, stands.closing, fun _ => rfl⟩
    cases (quiet rfl).symm.trans reads
  | clearAdmitted =>
    cases taken
    exact ⟨⟨cleared.closed, cleared.demand⟩, ⟨nofun, nofun, fun _ => placed.hooked (.inl rfl)⟩,
      fun _ other _ => other.keep id rfl⟩
  | closed | returned => cases taken

/-- If the hook of `close` never runs while a read is between its last check and its
publication, a reader that was closed leaves no demand. -/
theorem no_demand_once_closed {labels : List (Label Call)} {state : Calls Shared Call}
    (run : machine.RunsTo (Alone (· matches .closeHook) Call.publishing) labels state)
    (isClosed : .closed ∈ state.calls) : state.shared.demand = [] := by
  have holds : Holds Cleared Placed state := by
    refine holds_of_run (fun _ _ alone => alone) ⟨nofun, nofun⟩ ?_ ?_ run
    · intro _ call _ _ may
      cases call <;> cases may <;> exact ⟨nofun, nofun, nofun⟩
    · exact fun _ _ _ _ _ _ _ cleared placed => placed.advance cleared
  exact holds.shared.demand ((holds.calls _ isClosed).hooked (Or.inr rfl))

def closedAfterRead : Calls Shared Call :=
  ⟨⟨true, [], [], true⟩, [.returned, .closed]⟩

theorem no_demand_once_closed_read : closedAfterRead.shared.demand = [] := by
  have run : machine.RunsTo (Alone (· matches .closeHook) Call.publishing)
      ([.start (.readAt ⟨[3], fun _ => false⟩), .start .close] ++
        List.replicate 5 (.run 0) ++ List.replicate 3 (.run 1)) closedAfterRead :=
    .of_exec rfl (by decide) rfl
  exact no_demand_once_closed run (.tail _ (.head _))

/-- The read is past its checks when the reader is closed, and publishes afterwards. -/
theorem demand_after_close : Exists fun labels => Exists fun state =>
    machine.RunsTo Machine.always labels state ∧ state.calls matches [.returned, .closed] ∧
      state.shared.demand = [3] :=
  ⟨[.start (.readAt ⟨[3], fun _ => false⟩), .start .close, .run 0, .run 0] ++
    List.replicate 3 (.run 1) ++ List.replicate 3 (.run 0), _,
    .of_exec rfl (Machine.permits_always _ _ _) rfl, rfl, rfl⟩

end PreviewReader
end TorrentPlayer.Engine
