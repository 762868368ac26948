import Mathlib.Data.List.Basic
import Mathlib.Tactic.SplitIfs

namespace TorrentPlayer.Playback

open List

/-!
# Saves of resume windows

A save waits in a map by info hash, is taken out by its delayed task or by a
flush, and is published if no window was cleared since it was scheduled.
-/

structure PendingSave where
  hash : String
  generation : Nat
  clearGeneration : Nat
  /-- It is out of the map, and not published yet. -/
  taken : Bool
  deriving DecidableEq

/-- The saves that wait or are under way, and the generation and the bytes of every
window file. -/
structure ResumeState where
  saves : List PendingSave
  generation : Nat
  clearGeneration : Nat
  windows : String -> Option (Nat × List UInt8)
  dated : ∀ save ∈ saves, save.clearGeneration <= clearGeneration

namespace ResumeState

variable (state : ResumeState)

def scheduleResumePersist (hash : String) : ResumeState where
  saves := state.saves.filter (fun save => save.taken ∨ save.hash ≠ hash) ++
    [⟨hash, state.generation + 1, state.clearGeneration, false⟩]
  generation := state.generation + 1
  clearGeneration := state.clearGeneration
  windows := state.windows
  dated := by
    refine forall_mem_append.mpr ⟨fun save member => ?_, forall_mem_singleton.mpr ?_⟩
    · exact state.dated save (mem_of_mem_filter member)
    · exact Nat.le_refl _

/-- Some of the saves leave the map. -/
def takePending (chosen : PendingSave -> Bool) : ResumeState :=
  { state with
    saves := state.saves.map (fun save => { save with taken := save.taken || chosen save })
    dated := by
      intro save member
      rcases mem_map.mp member with ⟨old, isOld, rfl⟩
      exact state.dated old isOld }

def flushResumeSaves : ResumeState :=
  state.takePending (fun _ => true)

/-- A save is written unless its generation was cleared or something fails, which the
environment decides. -/
def publishes (save : PendingSave) (ok : Bool) : Bool :=
  decide (state.clearGeneration = save.clearGeneration) && ok

def removeWindows (chosen : String -> Bool) (hash : String) : Option (Nat × List UInt8) :=
  if chosen hash then none else state.windows hash

/-- The last part of `persist_resume`, once the data is copied.  Over the budget
(`crowded`), all windows but the protected ones go first, even if the save then fails. -/
def persistResume (save : PendingSave) (bytes : List UInt8) (crowded : Bool)
    (protect : List String) (ok : Bool) : ResumeState :=
  let windows := state.removeWindows
    (fun hash => state.publishes save crowded && hash ∉ protect)
  { state with
    saves := state.saves.erase save
    windows := if state.publishes save ok then
        Function.update windows save.hash (some (save.generation, bytes))
      else windows
    dated := fun other member => state.dated other (mem_of_mem_erase member) }

/-- Some of the saves that wait and some of the windows are dropped. -/
def clear (saves windows : String -> Bool) : ResumeState where
  saves := state.saves.filter (fun save => save.taken || !saves save.hash)
  generation := state.generation
  clearGeneration := state.clearGeneration + 1
  windows := state.removeWindows windows
  dated := fun save member =>
    Nat.le_succ_of_le (state.dated save (mem_of_mem_filter member))

def deleteResumeWindow (infoHash : String) : ResumeState :=
  state.clear (· = infoHash) (· = infoHash)

def cacheCategories : List String :=
  ["startup", "resume", "peers", "dht"]

/-- The part of `clear_engine_cache` that concerns the windows. -/
def clearEngineCache (categories protect : List String) : Except String ResumeState :=
  if categories = [] then .error "no categories"
  else
    match categories.find? (· ∉ cacheCategories) with
    | some category => .error ("invalid cache category \"" ++ category ++ "\"")
    | none =>
      .ok (if "resume" ∈ categories then state.clear (fun _ => true) (· ∉ protect)
        else state.clear (fun _ => false) (fun _ => false))

end ResumeState

/-- The calls that clear windows. -/
inductive Clearing where
  | deleteResumeWindow (infoHash : String)
  | clearEngineCache (categories protect : List String)

namespace Clearing

/-- The call is not about the window of this torrent. -/
def Spares (hash : String) : Clearing -> Prop
  | .deleteResumeWindow infoHash => infoHash ≠ hash
  | .clearEngineCache categories _ => "resume" ∉ categories

def Refused : Clearing -> Prop
  | .deleteResumeWindow _ => False
  | .clearEngineCache categories _ =>
    categories = [] \/ ¬categories ⊆ ResumeState.cacheCategories

end Clearing

namespace ResumeState

/-- A refused call leaves the state as it is. -/
def clearing (state : ResumeState) : Clearing -> ResumeState
  | .deleteResumeWindow infoHash => state.deleteResumeWindow infoHash
  | .clearEngineCache categories protect =>
    (state.clearEngineCache categories protect).toOption.getD state

variable {state : ResumeState} {save : PendingSave} (there : save ∈ state.saves)
  {call : Clearing} (spares : call.Spares save.hash)
include there spares

/-- Both calls clear no more than they should, but move the generation of all saves. -/
theorem cleared_of_call : save ∈ (state.clearing call).saves /\
    (call.Refused /\ state.clearing call = state \/
      ¬call.Refused /\ (state.clearing call).clearGeneration = state.clearGeneration + 1) := by
  cases call with
  | deleteResumeWindow infoHash =>
    exact ⟨mem_filter.mpr ⟨there, by simp [Ne.symm spares]⟩, Or.inr ⟨id, rfl⟩⟩
  | clearEngineCache categories protect =>
    rw [Clearing.Refused, clearing, clearEngineCache, if_neg spares]
    split_ifs with empty
    · exact ⟨there, Or.inl ⟨Or.inl empty, rfl⟩⟩
    split
    · next category found =>
        refine ⟨there, Or.inl ⟨Or.inr (fun valid => ?_), rfl⟩⟩
        simpa [valid (mem_of_find?_eq_some found)] using find?_some found
    · next valid =>
        refine ⟨mem_filter.mpr ⟨there, by simp⟩, Or.inr ⟨not_or.mpr ⟨empty, ?_⟩, rfl⟩⟩
        exact not_not.mpr fun category member => by simpa using find?_eq_none.mp valid category member

/-- The save stays where it is.  It is published as it would have been just if the call is
refused or that was not to be: it was cleared before, or it cannot be written. -/
theorem publishes_after_clearing_iff (ok : Bool) :
    save ∈ (state.clearing call).saves ∧
      ((state.clearing call).publishes save ok = state.publishes save ok <->
        call.Refused ∨ state.clearGeneration ≠ save.clearGeneration ∨ ok = false) := by
  rcases cleared_of_call there spares with ⟨kept, ⟨refused, same⟩ | ⟨accepted, moved⟩⟩
  · exact ⟨kept, by simp [same, refused]⟩
  refine ⟨kept, ?_⟩
  have later : (state.clearing call).clearGeneration ≠ save.clearGeneration := by
    have bound := state.dated save there
    omega
  rw [publishes, publishes, decide_eq_false later, Bool.false_and, or_iff_right accepted]
  cases ok <;> simp

omit there spares

/-- The save of one torrent is under way. -/
def savesG : ResumeState :=
  (scheduleResumePersist ⟨[], 0, 0, fun _ => none, nofun⟩ "g").flushResumeSaves

/-- A refused call changes nothing; deleting another window does. -/
theorem publishes_after_clearing_iff_savesG :
    let save : PendingSave := ⟨"g", 1, 0, true⟩
    (savesG.clearing (.clearEngineCache ["peers", "windows"] [])).publishes save true =
        savesG.publishes save true ∧
      (savesG.clearing (.deleteResumeWindow "h")).publishes save true ≠ savesG.publishes save true := by
  constructor
  · refine (publishes_after_clearing_iff (by decide) ?_ true).2.mpr (Or.inl (Or.inr (by decide)))
    exact show "resume" ∉ ["peers", "windows"] by decide
  · refine (publishes_after_clearing_iff (by decide) ?_ true).2.not.mpr ?_
    · exact show "h" ≠ "g" by decide
    · exact not_or.mpr ⟨id, by decide⟩

/-- The window of another torrent is deleted, and the save is lost. -/
theorem save_of_other_torrent_lost :
    (savesG.persistResume ⟨"g", 1, 0, true⟩ [7] false [] true).windows "g" = some (1, [7]) ∧
      ((savesG.deleteResumeWindow "h").persistResume ⟨"g", 1, 0, true⟩ [7] false [] true).windows
        "g" = none := by
  decide

end ResumeState
end TorrentPlayer.Playback
