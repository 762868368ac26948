import TorrentPlayer.Library.Calls

namespace TorrentPlayer.Engine
namespace PlaybackReaders

open Library Calls

/-!
# The limit on the readers of Direct Play

`open_playback_at` counts the open readers of its torrent, and registers its own
much later, under another lock.
-/

def directPlayMaxReaders : Nat := 4

structure Reader where
  id : String
  handle : Nat
  closed : Bool := false

structure Registry where
  readers : List Reader := []
  nextReaderId : Nat := 1

def Reader.isOpen (id : String) (reader : Reader) : Bool :=
  reader.id = id && !reader.closed

def Reader.close (handle : Nat) (reader : Reader) : Reader :=
  { reader with closed := reader.closed || reader.handle = handle }

namespace Registry

def openReaderCount (registry : Registry) (id : String) : Nat :=
  registry.readers.countP (Reader.isOpen id)

def insert (registry : Registry) (id : String) : Registry where
  readers := registry.readers.filter (fun reader => !reader.closed) ++
    [{ id := id, handle := registry.nextReaderId }]
  nextReaderId := registry.nextReaderId + 1

def close (registry : Registry) (handle : Nat) : Registry :=
  { registry with readers := registry.readers.map (Reader.close handle) }

theorem count_insert (registry : Registry) (own id : String) : (registry.insert own).openReaderCount id =
    registry.openReaderCount id + if own = id then 1 else 0 := by
  have stay : (registry.readers.filter (fun reader => !reader.closed)).countP
      (Reader.isOpen id) = registry.openReaderCount id := by
    rw [List.countP_filter]
    congr 1
    funext reader
    simp [Reader.isOpen]
  rw [openReaderCount, insert, List.countP_append, stay, List.countP_singleton]
  simp [Reader.isOpen]

theorem count_close (registry : Registry) (handle : Nat) (id : String) :
    (registry.close handle).openReaderCount id <= registry.openReaderCount id := by
  rw [openReaderCount, close, List.countP_map]
  refine List.countP_mono_left fun reader _ isOpen => ?_
  simp only [Function.comp_apply, Reader.isOpen, Reader.close, Bool.not_or, Bool.and_eq_true] at isOpen ⊢
  exact ⟨isOpen.1, isOpen.2.1⟩

end Registry

/-- An open before and after its count, with whether it works from there on, and a close. -/
inductive Call
  | openPlaybackAt (id : String) (works : Bool)
  | counted (id : String) (works : Bool)
  | close (handle : Nat)
  | returned
  deriving DecidableEq

def begins : Call -> Bool
  | .openPlaybackAt _ _ | .close _ => true
  | _ => false

def advance (directPlay : String -> Bool) (registry : Registry) : Call -> Option (Registry × Call)
  | .openPlaybackAt id works =>
    some (registry, if directPlay id && directPlayMaxReaders <= registry.openReaderCount id then
      .returned else .counted id works)
  | .counted _ false => some (registry, .returned)
  | .counted id true => some (registry.insert id, .returned)
  | .close handle => some (registry.close handle, .returned)
  | .returned => none

abbrev machine (directPlay : String -> Bool) : Machine (Calls Registry Call) (Label Call) :=
  Calls.machine {} begins (advance directPlay)

/-- An open of the torrent has counted. -/
def Call.hasCounted (id : String) : Call -> Bool
  | .counted other _ => other = id
  | _ => false

def Call.registers (id : String) : Call -> Bool
  | .counted other true => other = id
  | _ => false

def Room (id : String) (registry : Registry) (call : Call) : Prop :=
  call.hasCounted id = true -> registry.openReaderCount id < directPlayMaxReaders

theorem Room.advance {id : String} {directPlay : String -> Bool} (isDirect : directPlay id = true)
    {registry after : Registry} {call next : Call} (room : Room id registry call)
    (within : registry.openReaderCount id <= directPlayMaxReaders)
    (taken : advance directPlay registry call = some (after, next)) :
    after.openReaderCount id <= directPlayMaxReaders /\ Room id after next /\
    ∀ other, Room id registry other ->
      (call.registers id = true -> other.hasCounted id = false) -> Room id after other := by
  cases call with
  | openPlaybackAt other works =>
    cases taken
    refine ⟨within, ?_, fun _ room _ => room⟩
    split
    · nofun
    rename_i free
    intro same
    rw [of_decide_eq_true same, isDirect, Bool.true_and, decide_eq_true_eq, Nat.not_le] at free
    exact free
  | counted other works =>
    cases works with
    | false =>
      cases taken
      exact ⟨within, nofun, fun _ room _ => room⟩
    | true =>
      cases taken
      have count := Nat.le_of_eq (registry.count_insert other id)
      by_cases own : other = id
      · have counted := decide_eq_true own
        rw [if_pos own] at count
        refine ⟨Nat.le_trans count (room counted), nofun, fun waiting _ alone same => ?_⟩
        cases (alone counted).symm.trans same
      · rw [if_neg own] at count
        exact ⟨Nat.le_trans count within, nofun,
          fun _ before _ same => Nat.lt_of_le_of_lt count (before same)⟩
  | close handle =>
    cases taken
    have fewer := registry.count_close handle id
    exact ⟨Nat.le_trans fewer within, nofun, fun _ before _ same => Nat.lt_of_le_of_lt fewer (before same)⟩
  | returned => cases taken

/-- If no reader of a Direct Play torrent is registered while another of its opens is
between its count and its end, the open readers stay within the limit. -/
theorem readers_within_limit {id : String} {directPlay : String -> Bool}
    (isDirect : directPlay id = true) {labels : List (Label Call)}
    {state : Calls Registry Call} (run : (machine directPlay).RunsTo
      (Alone (Call.registers id) (Call.hasCounted id)) labels state) :
    state.shared.openReaderCount id <= directPlayMaxReaders := by
  have holds : Holds (fun registry => registry.openReaderCount id <= directPlayMaxReaders)
      (Room id) state := by
    refine holds_of_run (fun _ _ alone => alone) ?_ ?_ ?_ run
    · exact Nat.zero_le _
    · intro _ call _ _ may counted
      cases call <;> cases may <;> cases counted
    · exact fun _ _ _ _ _ _ _ within room => room.advance isDirect within
  exact holds.shared

/-- Five opens are under way.  Four register their readers one after the other, the fifth is
refused, and a reader is closed. -/
theorem readers_within_limit_five :
    let labels : List (Label Call) := List.replicate 5 (.start (.openPlaybackAt "t" true)) ++
      [0, 0, 1, 1, 2, 2, 3, 3, 4].map .run
    Exists fun full => Exists fun after => (machine fun _ => true).exec ⟨{}, []⟩ labels = some full ∧
      full.shared.openReaderCount "t" = directPlayMaxReaders ∧ full.calls[4]? = some .returned ∧
      (machine fun _ => true).exec full [.start (.close 2), .run 5] = some after ∧
      after.shared.openReaderCount "t" = 3 ∧
      after.shared.openReaderCount "t" <= directPlayMaxReaders := by
  intro labels
  have run : (machine fun _ => true).RunsTo (Alone (Call.registers "t") (Call.hasCounted "t"))
      (labels ++ [.start (.close 2), .run 5]) _ := .of_exec rfl (by decide) rfl
  exact ⟨_, _, rfl, rfl, rfl, rfl, rfl, readers_within_limit rfl run⟩

/-- Five opens count before the first of them registers its reader. -/
theorem five_readers_registered : Exists fun labels => Exists fun state =>
    (machine fun _ => true).RunsTo Machine.always labels state ∧ state.shared.openReaderCount "t" = 5 :=
  ⟨List.replicate 5 (.start (.openPlaybackAt "t" true)) ++
    (List.range 5 ++ List.range 5).map .run, _, .of_exec rfl (Machine.permits_always _ _ _) rfl, rfl⟩

end PlaybackReaders
end TorrentPlayer.Engine
