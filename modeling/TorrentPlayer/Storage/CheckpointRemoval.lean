import TorrentPlayer.Storage.CheckpointDrains

namespace TorrentPlayer.Storage

open Library CheckpointStore FiniteMap Option

/-!
# A removed checkpoint stays removed

A drain looks at the storage for the last time before it writes, so it may write
after the storage has changed.  The flag of the drains rules this out for `close`:
the storage is closed only while no drain holds the flag, and a drain that begins
later returns at its first section.  So nothing writes a checkpoint any more when
the file is deleted after `close`.
-/

def DrainTask.Holds : DrainTask -> Prop
  | .scheduled _ | .verifying _ | .closing _ => True
  | .verify | .close | .closeLast | .delete _ => False

/-- The drain has not taken anything along yet, or is over. -/
def Drain.Harmless : Drain -> Prop
  | .snapshot | .returned _ => True
  | .syncing _ _ _ _ | .checking _ _ | .writing _ _ | .naming _ _ | .finishing _ _ => False

def DrainTask.Harmless : DrainTask -> Prop
  | .scheduled drain | .verifying drain | .closing drain => drain.Harmless
  | .verify | .close | .closeLast | .delete _ => True

namespace CheckpointStore

structure Orderly (store : CheckpointStore) : Prop where
  guarded : Guarded DrainTask.Holds store.checkpointFlushing store.tasks
  calm : store.closed = true -> ∀ {id : Nat} {task : DrainTask},
    store.tasks.lookup id = some task -> task.Harmless
  returned : store.closeReturned = true -> store.closed = true
  deletes : ∀ {id : Nat}, store.tasks.lookup id = some (.delete true) -> store.closed = true
  removed : store.removed = true -> store.closed = true /\ store.file = none

/-! ## One section at a time -/

theorem drainStep_frame (store : CheckpointStore) (ok : Bool) (drain : Drain) :
    (store.drainStep ok drain).1.closed = store.closed /\ (store.drainStep ok drain).1.tasks = store.tasks /\
    (store.drainStep ok drain).1.checkpointFlushing = store.checkpointFlushing /\
    (store.drainStep ok drain).1.closeReturned = store.closeReturned /\
    (store.drainStep ok drain).1.removed = store.removed := by
  cases drain with
  | snapshot =>
    simp only [drainStep, snapshot]
    split_ifs <;> exact ⟨rfl, rfl, rfl, rfl, rfl⟩
  | syncing plan complete left =>
    cases left with
    | nil =>
      simp only [drainStep]
      split
      · split <;> exact ⟨rfl, rfl, rfl, rfl, rfl⟩
      · exact ⟨rfl, rfl, rfl, rfl, rfl⟩
    | cons => exact ⟨rfl, rfl, rfl, rfl, rfl⟩
  | checking | naming =>
    simp only [drainStep]
    split_ifs <;> exact ⟨rfl, rfl, rfl, rfl, rfl⟩
  | writing | returned => exact ⟨rfl, rfl, rfl, rfl, rfl⟩
  | finishing =>
    simp only [drainStep, finalize]
    split_ifs <;> exact ⟨rfl, rfl, rfl, rfl, rfl⟩

theorem drainStep_of_closed {store : CheckpointStore} (closed : store.closed = true) (ok : Bool)
    {drain : Drain} (harmless : drain.Harmless) :
    (store.drainStep ok drain).1 = store /\ (store.drainStep ok drain).2.Harmless := by
  cases drain with
  | snapshot =>
    rw [drainStep, snapshot, closed]
    exact ⟨rfl, trivial⟩
  | returned => exact ⟨rfl, trivial⟩
  | syncing plan complete left failed | checking plan complete | writing plan complete
  | naming | finishing => exact harmless.elim

variable {after : CheckpointStore} {task : DrainTask} {id : Nat}

namespace Orderly

variable {store : CheckpointStore}

section
variable (orderly : store.Orderly)
include orderly

/-- A change outside the calls that leaves what the invariant speaks of. -/
theorem change (closed : after.closed = store.closed)
    (tasks : after.tasks = store.tasks) (flag : after.checkpointFlushing = store.checkpointFlushing)
    (returned : after.closeReturned = store.closeReturned) (removed : after.removed = store.removed)
    (file : after.file = store.file) : after.Orderly := by
  constructor
  · rw [flag, tasks]
    exact orderly.guarded
  · rw [closed, tasks]
    exact orderly.calm
  · rw [returned, closed]
    exact orderly.returned
  · rw [tasks, closed]
    exact orderly.deletes
  · rw [removed, closed, file]
    exact orderly.removed

theorem setTask (id : Nat) (task : DrainTask)
    (kept : task.Holds -> Exists fun before => store.tasks.lookup id = some before /\ before.Holds)
    (harmless : store.closed = true -> task.Harmless)
    (deletes : task = .delete true -> store.closed = true) : (store.setTask id task).Orderly where
  guarded := orderly.guarded.goOn kept
  calm closed name found there := by
    rw [CheckpointStore.setTask, lookup_insert_eq] at there
    split at there
    · cases there
      exact harmless closed
    · exact orderly.calm closed there
  __ := orderly
  deletes there := by
    rw [CheckpointStore.setTask, lookup_insert_eq] at there
    split at there
    · exact deletes (Option.some.inj there)
    · exact orderly.deletes there

theorem leave (id : Nat) : (store.endTask id).Orderly where
  guarded := orderly.guarded.leave id
  calm closed _ _ there := orderly.calm closed (lookup_of_erase there)
  __ := orderly
  deletes there := orderly.deletes (lookup_of_erase there)

theorem beginDrain (free : store.checkpointFlushing = false) (id : Nat)
    (harmless : task.Harmless) (other : task ≠ .delete true) :
    (store.beginDrain id task).Orderly where
  guarded := by
    have unset := orderly.guarded
    rw [free] at unset
    exact unset.take id task
  calm closed name found there := by
    rw [CheckpointStore.beginDrain, CheckpointStore.setTask, lookup_insert_eq] at there
    split at there
    · cases there
      exact harmless
    · exact orderly.calm closed there
  __ := orderly
  deletes there := by
    rw [CheckpointStore.beginDrain, CheckpointStore.setTask, lookup_insert_eq] at there
    split at there
    · exact absurd (Option.some.inj there) other
    · exact orderly.deletes there

/-- The call that runs a drain gives the flag back and goes on. -/
theorem pass (found : store.tasks.lookup id = some task)
    (holds : task.Holds) : (store.endDrain.setTask id .closeLast).Orderly :=
  { orderly.setTask id .closeLast False.elim (fun _ => trivial) nofun with
    guarded := orderly.guarded.pass found holds False.elim }

theorem release (found : store.tasks.lookup id = some task)
    (holds : task.Holds) : (store.endDrain.endTask id).Orderly :=
  { orderly.leave id with guarded := orderly.guarded.release found holds }

/-- A drain takes a step.  `wrap` is the kind of call that runs it. -/
theorem goOn {drain : Drain} (ok : Bool) {wrap : Drain -> DrainTask}
    (found : store.tasks.lookup id = some (wrap drain)) (holds : ∀ drain, (wrap drain).Holds)
    (harmless : ∀ drain, (wrap drain).Harmless <-> drain.Harmless)
    (other : ∀ drain, wrap drain ≠ .delete true) : (store.goOn id ok wrap drain).Orderly := by
  rw [CheckpointStore.goOn]
  rcases store.drainStep_frame ok drain with ⟨closed, tasks, flag, returned, removed⟩
  by_cases isClosed : store.closed = true
  · have before := (harmless drain).mp (orderly.calm isClosed found)
    rcases drainStep_of_closed isClosed ok before with ⟨same, after⟩
    rw [same]
    exact orderly.setTask id _ (fun _ => ⟨_, found, holds _⟩) (fun _ => (harmless _).mpr after)
      (fun wrong => absurd wrong (other _))
  · -- An open storage has not had its checkpoint removed, so the file may change.
    have kept : (store.drainStep ok drain).1.Orderly := by
      constructor
      · rw [flag, tasks]
        exact orderly.guarded
      · rw [closed]
        exact fun now => absurd now isClosed
      · rw [returned, closed]
        exact orderly.returned
      · rw [tasks, closed]
        exact orderly.deletes
      · rw [removed]
        exact fun gone => absurd (orderly.removed gone).1 isClosed
    rw [<- tasks] at found
    exact kept.setTask id _ (fun _ => ⟨_, found, holds _⟩)
      (fun now => absurd (closed.symm.trans now) isClosed) (fun wrong => absurd wrong (other _))

theorem finishClose (free : store.checkpointFlushing = false)
    (isOpen : store.closed = false) : store.finishClose.Orderly where
  guarded := orderly.guarded
  calm _ name task found := by
    have idle := orderly.guarded.unset free found
    cases task with
    | scheduled | verifying | closing => exact absurd trivial idle
    | verify | close | closeLast | delete => trivial
  returned _ := rfl
  deletes _ := rfl
  removed gone := by
    have closed := (orderly.removed gone).1
    rw [isOpen] at closed
    cases closed

theorem noteReturned (closed : store.closed = true) :
    ({ store with closeReturned := true } : CheckpointStore).Orderly :=
  { orderly with returned := fun _ => closed }

theorem schedule : store.scheduleCheckpointFlush.Orderly := by
  unfold scheduleCheckpointFlush
  split
  · exact orderly
  split
  · exact orderly
  · exact orderly.change rfl rfl rfl rfl rfl rfl

theorem markDirty : store.markDirty.Orderly :=
  orderly.change rfl rfl rfl rfl rfl rfl

end

theorem flag_of_idle (idle : store.idle = true) : store.checkpointFlushing = false := by
  rw [CheckpointStore.idle, Bool.and_eq_true, Bool.not_eq_true_eq_eq_false] at idle
  exact idle.1

/-- `delete_checkpoint` removes the file. -/
theorem delete (orderly : store.Orderly) {afterClose : Bool}
    (found : store.tasks.lookup id = some (.delete afterClose)) :
    ({ store.endTask id with file := none, removed := store.removed || afterClose } :
      CheckpointStore).Orderly where
  guarded := (orderly.leave id).guarded
  calm := (orderly.leave id).calm
  returned := orderly.returned
  deletes := (orderly.leave id).deletes
  removed gone := by
    refine ⟨?_, rfl⟩
    rcases Bool.or_eq_true_iff.mp gone with earlier | now
    · exact (orderly.removed earlier).1
    rw [now] at found
    exact orderly.deletes found

end Orderly

/-! ## Steps and runs -/

variable {store : CheckpointStore}

theorem orderly_run (orderly : store.Orderly) {ok : Bool} (found : store.tasks.lookup id = some task)
    (taken : store.run id ok task = some after) : after.Orderly := by
  cases task with
  | scheduled =>
    rw [run] at taken
    split at taken
    · cases taken
      have ended := orderly.release found trivial
      split
      · exact ended
      · exact ended.schedule
    · cases taken
      exact orderly.goOn ok found (fun _ => trivial) (fun _ => Iff.rfl) nofun
  | verify =>
    rcases ite_none_right_eq_some.mp taken with ⟨idle, ⟨⟩⟩
    exact orderly.markDirty.beginDrain (Orderly.flag_of_idle idle) id trivial nofun
  | verifying =>
    rw [run] at taken
    split at taken
    · cases taken
      exact orderly.release found trivial
    · cases taken
      exact orderly.goOn ok found (fun _ => trivial) (fun _ => Iff.rfl) nofun
  | close =>
    rcases ite_none_left_eq_some.mp taken with ⟨busy, taken⟩
    have free := Orderly.flag_of_idle (by simpa using busy)
    split at taken
    next closed =>
      cases taken
      exact (orderly.leave id).noteReturned closed
    next isOpen =>
      split at taken
      · cases taken
        exact orderly.markDirty.beginDrain free id trivial nofun
      · cases taken
        exact (orderly.finishClose free (Bool.eq_false_of_not_eq_true isOpen)).leave id
  | closing =>
    rw [run] at taken
    split at taken
    · cases taken
      exact orderly.pass found trivial
    · cases taken
      exact orderly.goOn ok found (fun _ => trivial) (fun _ => Iff.rfl) nofun
  | closeLast =>
    rcases ite_none_left_eq_some.mp taken with ⟨busy, taken⟩
    have free := Orderly.flag_of_idle (by simpa using busy)
    split at taken
    next closed =>
      cases taken
      exact (orderly.leave id).noteReturned closed
    next isOpen =>
      cases taken
      exact (orderly.finishClose free (Bool.eq_false_of_not_eq_true isOpen)).leave id
  | delete =>
    rw [run] at taken
    split at taken
    · cases taken
      exact orderly.delete found
    · cases taken
      exact orderly.leave id

theorem orderly_wake (orderly : store.Orderly) (id : Nat) : (store.wake id).Orderly := by
  have awake : ({ store with
      checkpointFlushScheduled := false
      timers := store.timers - 1 } : CheckpointStore).Orderly :=
    orderly.change rfl rfl rfl rfl rfl rfl
  unfold wake
  split
  · exact awake
  rename_i free
  split
  · exact awake
  rw [Bool.or_eq_true, not_or] at free
  exact awake.beginDrain (Bool.eq_false_of_not_eq_true free.2) id trivial nofun

theorem orderly_step {label : DrainLabel} (orderly : store.Orderly)
    (taken : store.step label = some after) : after.Orderly := by
  cases label with
  | markComplete =>
    rcases ite_none_left_eq_some.mp taken with ⟨_, ⟨⟩⟩
    exact Orderly.schedule (orderly.change rfl rfl rfl rfl rfl rfl)
  | startup =>
    cases taken
    exact orderly.change rfl rfl rfl rfl rfl rfl
  | wake id =>
    rcases ite_none_left_eq_some.mp taken with ⟨_, ⟨⟩⟩
    exact orderly_wake orderly id
  | markVerified id =>
    rcases ite_none_left_eq_some.mp taken with ⟨_, ⟨⟩⟩
    exact orderly.setTask id .verify False.elim (fun _ => trivial) nofun
  | close id =>
    rcases ite_none_left_eq_some.mp taken with ⟨_, taken⟩
    split at taken
    next closed =>
      cases taken
      exact orderly.noteReturned closed
    · cases taken
      exact orderly.setTask id .close False.elim (fun _ => trivial) nofun
  | deleteCheckpoint id =>
    rcases ite_none_left_eq_some.mp taken with ⟨_, ⟨⟩⟩
    have forgotten : store.forgetCheckpoint.Orderly := orderly.change rfl rfl rfl rfl rfl rfl
    refine forgotten.setTask id (.delete store.closeReturned) False.elim (fun _ => trivial) ?_
    intro same
    exact orderly.returned (DrainTask.delete.inj same)
  | run =>
    rw [step] at taken
    split at taken
    · cases taken
    next task found => exact orderly_run orderly found taken

theorem orderly_init (initial : machine.init store) : store.Orderly := by
  rcases initial with ⟨_, _, _, _, rfl⟩
  exact ⟨Guarded.empty _, nofun, nofun, nofun, nofun⟩

end CheckpointStore

/-- Once `close` and then `delete_checkpoint` have returned, no checkpoint file is
there, whatever drains were started before and wherever they are. -/
theorem no_checkpoint_after_removal {labels : List DrainLabel} {store : CheckpointStore}
    (run : machine.RunsTo Machine.always labels store)
    (removed : store.removed = true) : store.file = none :=
  have orderly : store.Orderly :=
    run.stateInvariant (fun _ initial => orderly_init initial)
      (fun _ _ _ orderly _ taken => orderly_step orderly taken)
  (orderly.removed removed).2

/-- A timer's drain is under way when `close` is called, and its checkpoint is
written before `close` has its turn.  The checkpoint of `close` itself follows.
Then the file is deleted, while a late `mark_verified` still runs its drain. -/
def removalLabels : List DrainLabel :=
  [.markComplete 0 [0], .wake 0, .run 0 true, .run 0 true, .close 1, .run 0 true, .run 0 true,
    .run 0 true, .run 0 true, .run 0 true, .run 0 true, .run 1 true, .run 1 true, .run 1 true,
    .run 1 true, .run 1 true, .run 1 true, .run 1 true, .run 1 true, .run 1 true,
    .markVerified 2, .run 2 true, .deleteCheckpoint 3, .run 2 true, .run 3 true]

def openStore : CheckpointStore := {}

theorem openStore_init : machine.init openStore :=
  ⟨true, false, ∅, none, rfl⟩

theorem no_checkpoint_after_removal_late :
    let store := (machine.exec openStore removalLabels).getD openStore
    store.removed = true ∧ store.file = none := by
  have run : machine.RunsTo Machine.always removalLabels
      ((machine.exec openStore removalLabels).getD openStore) :=
    .of_exec openStore_init (Machine.permits_always _ _ _) rfl
  have removed : ((machine.exec openStore removalLabels).getD
      openStore).removed = true := by decide +kernel
  exact ⟨removed, no_checkpoint_after_removal run removed⟩

end TorrentPlayer.Storage
