import Mathlib.Data.List.Basic

namespace TorrentPlayer.Library

/-!
# Machines of labelled partial steps

A machine is a set of initial states and one partial step for every label.
Everything the environment decides (which thread moves next, whether a file
operation fails, what a remote peer sends) is carried by the label, so a
machine is executable and a schedule is an ordinary list of labels.

Runs are restricted by a predicate on the state before a step and its label.
The unrestricted machine is the one that permits every step.  An invariant is
proved once for the initial states and once for a step; the rule below then
gives it for every state of every run.
-/

universe u v

/-- Initial states and labelled partial steps.  A label that is not enabled
in a state has no successor there. -/
structure Machine (State : Type u) (Label : Type v) where
  init : State -> Prop
  step : State -> Label -> Option State

namespace Machine

variable {State : Type u} {Label : Type v}

/-- The runs of a machine whose steps are all permitted, with their labels in
the order in which they were taken. -/
inductive RunsTo (machine : Machine State Label) (permitted : State -> Label -> Prop) :
    List Label -> State -> Prop
  | start {state : State} (initial : machine.init state) : RunsTo machine permitted [] state
  | next {labels : List Label} {state after : State} {label : Label}
      (before : RunsTo machine permitted labels state)
      (allowed : permitted state label)
      (taken : machine.step state label = some after) :
      RunsTo machine permitted (labels ++ [label]) after

/-- The predicate of an unrestricted run. -/
def always : State -> Label -> Prop :=
  fun _ _ => True

/-- Execute a schedule.  A label that is not enabled stops the execution. -/
def exec (machine : Machine State Label) : State -> List Label -> Option State
  | state, [] => some state
  | state, label :: labels =>
    match machine.step state label with
    | none => none
    | some after => machine.exec after labels

/-- Every step of a schedule is permitted in the state it is taken from. -/
def Permits (machine : Machine State Label) (permitted : State -> Label -> Prop) :
    State -> List Label -> Prop
  | _, [] => True
  | state, label :: labels =>
    permitted state label /\
      match machine.step state label with
      | none => True
      | some after => machine.Permits permitted after labels

instance permitsDecidable (machine : Machine State Label) (permitted : State -> Label -> Prop)
    [decide : ∀ state label, Decidable (permitted state label)] :
    ∀ (state : State) (labels : List Label), Decidable (machine.Permits permitted state labels)
  | _, [] => isTrue trivial
  | state, label :: labels =>
    match decide state label with
    | isFalse refused => isFalse (fun both => refused both.1)
    | isTrue allowed =>
      match taken : machine.step state label with
      | none => isTrue ⟨allowed, by rw [taken]; trivial⟩
      | some after =>
        match permitsDecidable machine permitted after labels with
        | isTrue rest => isTrue ⟨allowed, by rw [taken]; exact rest⟩
        | isFalse refused =>
          isFalse (fun both => refused (by
            have rest := both.2
            rw [taken] at rest
            exact rest))

variable {machine : Machine State Label} {permitted : State -> Label -> Prop} {labels : List Label}

theorem RunsTo.invariant {motive : List Label -> State -> Prop}
    (starts : ∀ state, machine.init state -> motive [] state)
    (keeps : ∀ labels state label after, motive labels state ->
      permitted state label -> machine.step state label = some after ->
      motive (labels ++ [label]) after) {labels : List Label} {state : State}
    (run : machine.RunsTo permitted labels state) : motive labels state := by
  induction run with
  | start initial => exact starts _ initial
  | next _ allowed taken ih => exact keeps _ _ _ _ ih allowed taken

theorem RunsTo.stateInvariant {motive : State -> Prop}
    (starts : ∀ state, machine.init state -> motive state)
    (keeps : ∀ state label after, motive state ->
      permitted state label -> machine.step state label = some after -> motive after)
    {labels : List Label} {state : State}
    (run : machine.RunsTo permitted labels state) : motive state :=
  run.invariant (motive := fun _ state => motive state) starts
    (fun _ state label after => keeps state label after)

theorem RunsTo.extend : ∀ (labels : List Label) {earlier : List Label} {state final : State},
      machine.RunsTo permitted earlier state -> machine.Permits permitted state labels ->
      machine.exec state labels = some final -> machine.RunsTo permitted (earlier ++ labels) final
  | [], earlier, state, final, run, _, reached => by
      have same : state = final := Option.some.inj reached
      rw [List.append_nil, <- same]
      exact run
  | label :: labels, earlier, state, final, run, permits, reached => by
      cases taken : machine.step state label with
      | none =>
        simp only [exec, taken] at reached
        cases reached
      | some after =>
        simp only [exec, taken] at reached
        simp only [Permits, taken] at permits
        have longer := RunsTo.extend labels (.next run permits.1 taken) permits.2 reached
        rwa [List.append_assoc, List.singleton_append] at longer

theorem RunsTo.of_exec {state final : State}
    (initial : machine.init state) (permits : machine.Permits permitted state labels)
    (reached : machine.exec state labels = some final) : machine.RunsTo permitted labels final := by
  simpa only [List.nil_append] using RunsTo.extend labels (.start initial) permits reached

/-- The same, for a schedule whose last state is not written out. -/
theorem RunsTo.of_exec_isSome {state : State} (initial : machine.init state)
    (permits : machine.Permits permitted state labels) (done : (machine.exec state labels).isSome = true) :
    machine.RunsTo permitted labels ((machine.exec state labels).get done) :=
  .of_exec initial permits (Option.some_get done).symm

theorem permits_always (machine : Machine State Label) :
    ∀ (labels : List Label) (state : State), machine.Permits always state labels
  | [], _ => trivial
  | label :: labels, state => by
      refine ⟨trivial, ?_⟩
      cases machine.step state label with
      | none => trivial
      | some after => exact permits_always machine labels after

end Machine
end TorrentPlayer.Library
