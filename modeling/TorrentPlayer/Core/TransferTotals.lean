import TorrentPlayer.Library.Machine
import Mathlib.Algebra.BigOperators.Group.List.Basic
import Mathlib.Algebra.Order.Monoid.Prod
import Mathlib.Algebra.Order.Ring.Nat

namespace TorrentPlayer.Core

open Library List

/-!
# The transfer totals

A connection that is retired moves its counters into the totals of the retired
connections, in one section of the registry.  `Torrent::stats` reads both under
the registry's lock.  `transfer_totals` reads the retired totals first and the
registry afterwards: a connection that is retired in between is in neither.
-/

/-- The bytes of data written and read. -/
abbrev ConnStats : Type :=
  Nat × Nat

inductive TotalsKind where
  | stats
  | transferTotals

/-- Where a read is.  The counters of the web seeds are read one by one. -/
inductive TotalsStage where
  | begun
  | written (count : Nat)
  | seeds (seeds : ConnStats)
  | retired (sum : ConnStats)

structure TotalsRead where
  kind : TotalsKind
  /-- What the reads had returned that were over when this one started. -/
  earlier : List ConnStats
  stage : TotalsStage := .begun

structure Transfers where
  webseedStats : ConnStats := 0
  retiredConnStats : ConnStats := 0
  connHandles : List ConnStats := []
  reads : List TotalsRead := []
  /-- What each read returned, with the reads before it. -/
  returned : List (ConnStats × List ConnStats) := []

namespace Transfers

variable (state : Transfers)

/-- The next step of a read: where it goes on, or what it returns. -/
def next (read : TotalsRead) : TotalsStage ⊕ ConnStats :=
  match read.stage, read.kind with
  | .begun, _ => .inl (.written state.webseedStats.1)
  | .written count, _ => .inl (.seeds (count, state.webseedStats.2))
  | .seeds seeds, .stats => .inr (seeds + state.retiredConnStats + state.connHandles.sum)
  | .seeds seeds, .transferTotals => .inl (.retired (seeds + state.retiredConnStats))
  | .retired sum, _ => .inr (sum + state.connHandles.sum)

inductive Label where
  | connect
  | countConn (conn : Nat) (more : ConnStats)
  | countSeed (more : ConnStats)
  | retire (conn : Nat)
  | read (kind : TotalsKind)
  | advance (place : Nat)

def step : Label -> Option Transfers
  | .connect => some { state with connHandles := state.connHandles ++ [0] }
  | .countConn conn more =>
    some { state with connHandles := state.connHandles.modify conn (· + more) }
  | .countSeed more => some { state with webseedStats := state.webseedStats + more }
  | .retire conn => state.connHandles[conn]?.map (fun stats => { state with
      retiredConnStats := state.retiredConnStats + stats
      connHandles := state.connHandles.eraseIdx conn })
  | .read kind => some { state with
      reads := state.reads ++ [{ kind := kind, earlier := state.returned.map Prod.fst }] }
  | .advance place => state.reads[place]?.map (fun read =>
      match state.next read with
      | .inl stage => { state with reads := state.reads.set place { read with stage := stage } }
      | .inr sum => { state with
          reads := state.reads.eraseIdx place
          returned := state.returned ++ [(sum, read.earlier)] })

def machine : Machine Transfers Label where
  init := fun state => state = {}
  step := step

/-- No connection is retired while a read has the retired totals and not yet
those of the registry. -/
def Undisturbed : Label -> Prop
  | .retire _ => ∀ read ∈ state.reads, ∀ sum, read.stage ≠ .retired sum
  | _ => True

/-! ## What a read will return -/

def total : ConnStats :=
  state.webseedStats + state.retiredConnStats + state.connHandles.sum

/-- What the read returns if nothing is counted from now on. -/
def outcome : TotalsStage -> ConnStats
  | .begun => state.total
  | .written count => (count, state.webseedStats.2) + state.retiredConnStats + state.connHandles.sum
  | .seeds seeds => seeds + state.retiredConnStats + state.connHandles.sum
  | .retired sum => sum + state.connHandles.sum

theorem outcome_next (read : TotalsRead) :
    (state.next read).elim state.outcome id = state.outcome read.stage := by
  rcases read with ⟨kind, earlier, stage⟩
  cases stage with
  | begun | written | retired => rfl
  | seeds => cases kind <;> rfl

structure Growing : Prop where
  reads : ∀ read ∈ state.reads, state.outcome read.stage <= state.total /\
    ∀ sum ∈ read.earlier, sum <= state.outcome read.stage
  returned : ∀ entry ∈ state.returned, entry.1 <= state.total
  ordered : ∀ entry ∈ state.returned, ∀ sum ∈ entry.2, sum <= entry.1

variable {state} {after : Transfers}

theorem Growing.count (growing : Growing state) (seeds : state.webseedStats <= after.webseedStats)
    (conns : state.retiredConnStats + state.connHandles.sum <= after.retiredConnStats + after.connHandles.sum)
    (handles : state.retiredConnStats = after.retiredConnStats \/
      ∀ read ∈ state.reads, ∀ sum, read.stage ≠ .retired sum)
    (reads : after.reads = state.reads) (returned : after.returned = state.returned) :
    Growing after := by
  have total : state.total <= after.total := by
    simp only [Transfers.total, add_assoc]
    exact add_le_add seeds conns
  refine ⟨fun read member => ?_, fun entry member => ?_, ?_⟩
  · rw [reads] at member
    rcases growing.reads read member with ⟨below, above⟩
    have outcomes : state.outcome read.stage <= after.outcome read.stage /\
        after.outcome read.stage <= after.total := by
      have same := handles.imp_right (fun others => others read member)
      revert below same
      cases read.stage <;>
        simp only [outcome, Transfers.total, Prod.le_def, Prod.fst_add, Prod.snd_add] at * <;>
        grind
    exact ⟨outcomes.2, fun sum earlier => (above sum earlier).trans outcomes.1⟩
  · rw [returned] at member
    exact (growing.returned entry member).trans total
  · rw [returned]
    exact growing.ordered

theorem sum_le_sum_modify (stats : List ConnStats) (conn : Nat) (more : ConnStats) :
    stats.sum <= (stats.modify conn (· + more)).sum := by
  induction stats generalizing conn with
  | nil => simp
  | cons first stats ih =>
    cases conn with
    | zero => simp
    | succ conn => simpa using ih conn

theorem Growing.advance (growing : Growing state) {place : Nat}
    (moved : step state (.advance place) = some after) : Growing after := by
  rcases Option.map_eq_some_iff.mp moved with ⟨read, found, rfl⟩
  rcases growing.reads read (mem_of_getElem? found) with ⟨below, above⟩
  have kept := state.outcome_next read
  split
  next stage goes =>
    rw [goes] at kept
    refine ⟨fun other member => ?_, growing.returned, growing.ordered⟩
    rcases mem_or_eq_of_mem_set member with old | rfl
    · exact growing.reads other old
    rw [<- kept] at below above
    exact ⟨below, above⟩
  next sum ends =>
    rw [ends] at kept
    rw [<- kept] at below above
    refine ⟨fun other member => growing.reads other (mem_of_mem_eraseIdx member), ?_, ?_⟩
    · exact forall_mem_append.mpr ⟨growing.returned, forall_mem_singleton.mpr below⟩
    · exact forall_mem_append.mpr ⟨growing.ordered, forall_mem_singleton.mpr above⟩

theorem Growing.step {label : Label} (growing : Growing state)
    (undisturbed : Undisturbed state label) (moved : step state label = some after) : Growing after := by
  cases label with
  | connect =>
    cases moved
    exact growing.count (le_refl _) (by simp) (Or.inl rfl) rfl rfl
  | countConn conn more =>
    cases moved
    refine growing.count (le_refl _) ?_ (Or.inl rfl) rfl rfl
    exact add_le_add (le_refl _) (sum_le_sum_modify _ conn more)
  | countSeed =>
    cases moved
    exact growing.count le_self_add (le_refl _) (Or.inl rfl) rfl rfl
  | retire =>
    rcases Option.map_eq_some_iff.mp moved with ⟨stats, found, rfl⟩
    refine growing.count (le_refl _) (le_of_eq ?_) (Or.inr undisturbed) rfl rfl
    rcases List.getElem?_eq_some_iff.mp found with ⟨inside, rfl⟩
    rw [<- (getElem_cons_eraseIdx_perm inside).sum_eq, sum_cons, add_assoc]
  | read =>
    cases moved
    refine ⟨forall_mem_append.mpr ⟨growing.reads, forall_mem_singleton.mpr ?_⟩,
      growing.returned, growing.ordered⟩
    exact ⟨le_refl _, forall_mem_map.mpr growing.returned⟩
  | advance => exact growing.advance moved

/-- In every run in which no connection is retired between the two looks of a
`transfer_totals`, a read that starts after another one has returned reports at
least as many bytes in both directions. -/
theorem totals_never_decrease {labels : List Label}
    (run : machine.RunsTo Undisturbed labels state) : forall entry, entry ∈ state.returned ->
      forall sum, sum ∈ entry.2 -> sum <= entry.1 := by
  have growing : Growing state := by
    refine run.stateInvariant ?_ (fun _ _ _ growing calm moved => growing.step calm moved)
    rintro first rfl
    constructor
    all_goals nofun
  exact growing.ordered

/-- A connection with five bytes in either direction, which the first read
counts.  It is retired while a second read goes on. -/
def twoReads (retire : List Label) : List Label :=
  [.connect, .countConn 0 (5, 5), .read .transferTotals, .advance 0, .advance 0, .advance 0,
    .advance 0, .read .transferTotals, .advance 0, .advance 0] ++ retire ++ [.advance 0]

theorem totals_never_decrease_retired :
    let reached := (machine.exec {} (twoReads [.retire 0] ++ [.advance 0])).getD {}
    reached.returned = [((5, 5), []), ((5, 5), [(5, 5)])] ∧
      forall entry, entry ∈ reached.returned -> forall sum, sum ∈ entry.2 -> sum <= entry.1 := by
  have run : machine.RunsTo Undisturbed (twoReads [.retire 0] ++ [.advance 0])
      ((machine.exec {} (twoReads [.retire 0] ++ [.advance 0])).getD {}) :=
    .of_exec rfl (by simp [twoReads, Machine.Permits, machine, step, Undisturbed, next]) rfl
  exact ⟨by decide, totals_never_decrease run⟩

/-- Retired between the two looks of the second read, the bytes are gone. -/
theorem retired_bytes_vanish :
    let reached := (machine.exec {} (twoReads [.advance 0, .retire 0])).getD {}
    machine.RunsTo Machine.always (twoReads [.advance 0, .retire 0]) reached ∧
      reached.returned = [((5, 5), []), ((0, 0), [(5, 5)])] :=
  ⟨.of_exec rfl (machine.permits_always _ _) rfl, by decide⟩

end Transfers
end TorrentPlayer.Core
