import TorrentPlayer.Core.Priorities
import TorrentPlayer.Library.Calls

namespace TorrentPlayer.Core
namespace HasherPool

open Library Library.Calls

/-!
# The pool of piece hashers

Workers take jobs from one heap and send results, with a look at the cancel token
before, between and after.  `queue` looks at the token and pushes the job later.
-/

/-- A job, with what hashing its piece will give, which the storage decides. -/
structure HashJob where
  pieceIndex : Nat
  priority : PiecePriority
  seq : Nat
  correct : Bool := true
  interrupted : Bool := false
  deriving DecidableEq

structure HashResult where
  pieceIndex : Nat
  correct : Bool
  seq : Nat
  cancelled : Bool
  deriving DecidableEq

def HashJob.key (job : HashJob) : Nat × Nat :=
  (job.pieceIndex, job.seq)

def HashResult.key (result : HashResult) : Nat × Nat :=
  (result.pieceIndex, result.seq)

/-- The order of the heap: by priority, then by index and number, the lower the higher. -/
def HashJob.Below (job other : HashJob) : Prop :=
  job.priority.rank < other.priority.rank ∨
    job.priority.rank = other.priority.rank /\ (other.pieceIndex < job.pieceIndex ∨
      other.pieceIndex = job.pieceIndex /\ other.seq < job.seq)

instance (job other : HashJob) : Decidable (job.Below other) :=
  inferInstanceAs (Decidable (_ ∨ _))

/-- The greatest job of a heap, and the others. -/
def pop : List HashJob -> Option (HashJob × List HashJob)
  | [] => none
  | job :: heap => some (match pop heap with
    | none => (job, [])
    | some (best, rest) => if job.Below best then (best, job :: rest) else (job, best :: rest))

structure Shared where
  queue : List HashJob := []
  /-- What the cancel token says. -/
  cancelled : Bool := false
  results : List HashResult := []

/-- The next step of a call of `queue`, of a change of the token, or of a worker. -/
inductive Call
  | queue (job : HashJob)
  | push (job : HashJob)
  | queued (job : HashJob)
  | cancelToken (cancelled : Bool)
  | returned
  | idle
  | draining
  | taking
  | took (job : HashJob)
  | runJob (job : HashJob)
  | send (result : HashResult) (drains : Bool)
  deriving DecidableEq

def begins : Call -> Bool
  | .queue _ | .cancelToken _ | .idle => true
  | _ => false

/-- `emit_cancelled`, up to the sending. -/
def emitCancelled (job : HashJob) (drains : Bool) : Call :=
  .send ⟨job.pieceIndex, false, job.seq, true⟩ drains

def advance (shared : Shared) : Call -> Option (Shared × Call)
  | .queue job => some (shared, if shared.cancelled then .returned else .push job)
  | .push job => some ({ shared with queue := job :: shared.queue }, .queued job)
  | .cancelToken cancelled => some ({ shared with cancelled := cancelled }, .returned)
  | .idle => some (shared, if shared.cancelled then .draining else .taking)
  | .draining => some (match pop shared.queue with
    | none => (shared, .idle)
    | some (job, rest) => ({ shared with queue := rest }, emitCancelled job true))
  | .taking => some (match pop shared.queue with
    | none => (shared, .idle)
    | some (job, rest) => ({ shared with queue := rest }, .took job))
  | .took job => some (shared, if shared.cancelled then emitCancelled job false else .runJob job)
  | .runJob job => some (shared, if shared.cancelled then emitCancelled job false else
      .send ⟨job.pieceIndex, job.correct, job.seq, job.interrupted⟩ false)
  | .send result drains => some ({ shared with results := shared.results ++ [result] },
      if drains then .draining else .idle)
  | .queued _ | .returned => none

abbrev machine : Machine (Library.Calls Shared Call) (Label Call) :=
  Library.Calls.machine {} begins advance

/-- A worker has the job, or its result. -/
def Call.holds (key : Nat × Nat) : Call -> Bool
  | .took job | .runJob job => job.key == key
  | .send result _ => result.key == key
  | _ => false

/-- `queue` has returned `Ok` for the job. -/
def Call.gave (key : Nat × Nat) : Call -> Bool
  | .queued job => job.key == key
  | _ => false

theorem pop_spec {heap rest : List HashJob} {job : HashJob} (popped : pop heap = some (job, rest)) :
    (∀ test, tally test heap = indicator (test job) + tally test rest) /\ job ∈ heap /\
    ∀ other ∈ heap, ¬ job.Below other := by
  induction heap generalizing job rest with
  | nil => cases popped
  | cons first heap ih =>
    rw [pop, Option.some_inj] at popped
    split at popped
    next empty =>
      cases popped
      cases heap with
      | nil => exact ⟨fun test => rfl, .head _, by simp [HashJob.Below]⟩
      | cons => cases empty
    next best others found =>
      rcases ih found with ⟨count, inside, greatest⟩
      split at popped <;> cases popped
      next below =>
        refine ⟨fun test => ?_, .tail _ inside, ?_⟩
        · rw [tally_cons, tally_cons, count]
          omega
        · rintro other (_ | ⟨_, listed⟩)
          · unfold HashJob.Below at *
            omega
          · exact greatest other listed
      next above =>
        refine ⟨fun test => by rw [tally_cons, tally_cons, count], .head _, ?_⟩
        rintro other (_ | ⟨_, listed⟩)
        · unfold HashJob.Below
          omega
        · have behind := greatest other listed
          unfold HashJob.Below at *
          omega

/-- One step moves a job from its caller to the heap, to a worker, to the results. -/
theorem advance_balances (key : Nat × Nat) {shared after : Shared} {call next : Call}
    (moved : advance shared call = some (after, next)) :
    tally (·.key == key) after.queue + tally (·.key == key) after.results +
      indicator (next.holds key) - indicator (next.gave key) =
    tally (·.key == key) shared.queue + tally (·.key == key) shared.results +
      indicator (call.holds key) - indicator (call.gave key) := by
  cases call with
  | queued | returned => cases moved
  | cancelToken => cases moved; rfl
  | queue | idle | took | runJob =>
    rcases shared with ⟨queue, _ | _, results⟩ <;> cases moved <;> rfl
  | push job =>
    cases moved
    simp only [tally_cons, Call.holds, Call.gave, indicator_false]
    ring
  | draining | taking =>
    rw [advance] at moved
    split at moved <;> cases moved
    next => rfl
    next job rest popped =>
      rw [(pop_spec popped).1]
      simp only [Call.holds, Call.gave, emitCancelled, HashJob.key, HashResult.key, indicator_false]
      ring
  | send result drains =>
    cases moved
    cases drains <;> simp [tally_append, Call.holds, Call.gave, add_assoc]

/-- The job is one of those of highest priority, and has the lowest index of these. -/
def MostUrgent (job : HashJob) (heap : List HashJob) : Prop :=
  job ∈ heap /\ ∀ other ∈ heap, other.priority <= job.priority /\
    (other.priority = job.priority -> job.pieceIndex <= other.pieceIndex)

theorem mostUrgent_of_pop {heap rest : List HashJob} {job : HashJob}
    (popped : pop heap = some (job, rest)) : MostUrgent job heap := by
  rcases pop_spec popped with ⟨_, inside, greatest⟩
  refine ⟨inside, fun other listed => ?_⟩
  have above := greatest other listed
  unfold HashJob.Below at above
  constructor
  · show other.priority.rank <= job.priority.rank
    omega
  · intro same
    rw [same] at above
    omega

/-- A worker that looks at a heap with jobs takes a most urgent one.  The same order holds for a
worker that drains the heap. -/
theorem takes_mostUrgent {state after : Library.Calls Shared Call} {index : Nat} {call : Call}
    (found : state.calls[index]? = some call) (takes : call = .taking \/ call = .draining)
    (queued : state.shared.queue ≠ []) (moved : machine.step state (.run index) = some after) :
    Exists fun job => MostUrgent job state.shared.queue /\
      after.calls[index]? = some (if call = .taking then .took job else emitCancelled job true) := by
  have inside := (List.getElem?_eq_some_iff.mp found).1
  simp only [Library.Calls.machine, step, found, Option.bind_some] at moved
  cases popped : pop state.shared.queue with
  | none =>
    cases heap : state.shared.queue with
    | nil => exact absurd heap queued
    | cons =>
      rw [heap] at popped
      cases popped
  | some best =>
    refine ⟨best.1, mostUrgent_of_pop popped, ?_⟩
    rcases takes with rfl | rfl <;> simp only [advance, popped, Option.map_some] at moved <;>
      cases moved <;> exact List.getElem?_set_self inside

/-- No job that `queue` accepted is lost or answered twice, whatever the workers and the token do,
and a worker that takes a job takes one of the most urgent, with the lowest index of these. -/
theorem hash_jobs_accounted {labels : List (Label Call)} {state : Library.Calls Shared Call}
    (run : machine.RunsTo Machine.always labels state) :
    (forall key, tally (·.key == key) state.shared.queue +
        tally (·.key == key) state.shared.results + tally (Call.holds key) state.calls =
      tally (Call.gave key) state.calls) /\
    forall index call after, state.calls[index]? = some call -> call = .taking \/ call = .draining ->
      state.shared.queue ≠ [] -> machine.step state (.run index) = some after ->
      Exists fun job => MostUrgent job state.shared.queue /\
        after.calls[index]? = some (if call = .taking then .took job else emitCancelled job true) := by
  refine ⟨fun key => tally_of_run (fun shared : Shared => tally (·.key == key) shared.queue +
    tally (·.key == key) shared.results) (Call.holds key) (Call.gave key) rfl ?_
    (fun _ _ _ _ => advance_balances key) run, fun _ _ _ => takes_mostUrgent⟩
  intro call
  cases call <;> simp [begins, Call.holds, Call.gave]

/-- Two workers and three jobs.  One job is taken and cancelled.  The worker that looked at the
token before takes the more urgent of the others. -/
theorem cancelled_job_accounted :
    Exists fun state => Exists fun labels => machine.RunsTo Machine.always labels state /\
      state.shared.results = [⟨3, false, 2, true⟩] /\ state.shared.queue.length = 2 /\
      (tally (·.key == (3, 2)) state.shared.queue + tally (·.key == (3, 2)) state.shared.results +
        tally (Call.holds (3, 2)) state.calls = tally (Call.gave (3, 2)) state.calls) /\
      forall after, machine.step state (.run 4) = some after ->
        after.calls[4]? = some (.took ⟨7, .now, 1, true, false⟩) := by
  let queue (index seq : Nat) (priority : PiecePriority) : Label Call :=
    .start (.queue ⟨index, priority, seq, true, false⟩)
  let labels : List (Label Call) := [queue 7 1 .now, queue 3 2 .now, queue 1 3 .normal] ++
    [0, 0, 1, 1, 2, 2].map .run ++ [.start .idle, .start .idle] ++ [3, 4, 3].map .run ++
    [.start (.cancelToken true), .run 5] ++ [3, 3, 3].map .run
  have run : machine.RunsTo Machine.always labels _ :=
    .of_exec rfl (Machine.permits_always _ _ _) rfl
  rcases hash_jobs_accounted run with ⟨counted, takes⟩
  refine ⟨_, labels, run, rfl, rfl, counted (3, 2), fun after moved => ?_⟩
  rcases takes 4 .taking after rfl (.inl rfl) nofun moved with ⟨job, ⟨listed, urgent⟩, there⟩
  rw [there, if_pos rfl]
  rcases List.mem_pair.mp listed with rfl | rfl
  · exact absurd (urgent ⟨7, .now, 1, true, false⟩ (by decide)).1 (by decide)
  · rfl

end HasherPool
end TorrentPlayer.Core
