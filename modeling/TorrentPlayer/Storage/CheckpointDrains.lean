import TorrentPlayer.Library.GuardedTasks
import TorrentPlayer.Library.Machine
import TorrentPlayer.Storage.Inner

namespace TorrentPlayer.Storage

open Library

/-!
# Drains of checkpoints

A drain notes under the lock what is complete, syncs the files without the lock,
and writes the checkpoint file without the lock.  Drains run on a timer, after
the check of saved data, and when the storage closes.  A flag keeps them apart:
`checkpointFlushing`.  Removing a torrent closes its storage and then deletes the
checkpoint file.

A step of the machine is one section under the lock or one file operation.  Where
a call waits for its turn, its step is not enabled before.
-/

/-- What a drain took along from its first section. -/
structure DrainPlan where
  gen : UInt64
  seq : Nat
  filesGen : Nat

inductive Drain where
  | snapshot
  /-- Files to sync, with those that failed.  There may be nothing to publish. -/
  | syncing (plan : DrainPlan) (complete : Option Flags) (left failed : List Nat)
  /-- Before the last look at the storage. -/
  | checking (plan : DrainPlan) (complete : Flags)
  /-- Before the temporary file is written, and before it takes its name. -/
  | writing (plan : DrainPlan) (complete : Flags)
  | naming (plan : DrainPlan) (complete : Flags)
  | finishing (plan : DrainPlan) (written : Bool)
  | returned (ok : Bool)

def Drain.over : Drain -> Bool
  | .returned _ => true
  | .snapshot | .syncing _ _ _ _ | .checking _ _ | .writing _ _ | .naming _ _ |
    .finishing _ _ => false

inductive DrainTask where
  | scheduled (drain : Drain)
  /-- `mark_verified` before its turn, and its drain. -/
  | verify
  | verifying (drain : Drain)
  /-- `close` before its turn, its drain, and before its last section. -/
  | close
  | closing (drain : Drain)
  | closeLast
  /-- `delete_checkpoint` before it removes the file.  `afterClose` says whether a
  `close` had returned when the call began; it is not part of the code. -/
  | delete (afterClose : Bool)

structure CheckpointStore where
  closed : Bool := false
  attached : Bool := true
  stream : Bool := false
  completed : Flags := ∅
  pendingSync : List Nat := []
  checkpointDirty : Bool := false
  checkpointGen : UInt64 := 0
  checkpointSeq : Nat := 0
  filesGen : Nat := 0
  checkpointFlushing : Bool := false
  checkpointFlushScheduled : Bool := false
  startupWriting : Bool := false
  /-- Timers that were started and have not run. -/
  timers : Nat := 0
  /-- The checkpoint file of the info hash. -/
  file : Option Flags := none
  tasks : FiniteMap Nat DrainTask := ∅
  /-- A `close` has returned.  Not part of the code. -/
  closeReturned : Bool := false
  /-- A `delete_checkpoint` that began after a `close` had returned has removed the
  file and returned.  Not part of the code. -/
  removed : Bool := false

namespace CheckpointStore

variable (store : CheckpointStore) (id : Nat) (ok : Bool)

def setTask (task : DrainTask) : CheckpointStore :=
  { store with tasks := store.tasks.insert id task }

def endTask : CheckpointStore :=
  { store with tasks := store.tasks.erase id }

/-- Start a timer, unless there is one or nothing is to be published. -/
def scheduleCheckpointFlush : CheckpointStore :=
  if store.stream || store.closed || !store.attached || store.checkpointFlushing ||
      store.checkpointFlushScheduled then store
  else if !store.checkpointDirty && store.pendingSync.isEmpty then store
  else { store with checkpointFlushScheduled := true, timers := store.timers + 1 }

/-- The first section of a drain. -/
def snapshot : CheckpointStore × Drain :=
  if store.closed || !store.attached then (store, .returned true)
  else
    let plan : DrainPlan :=
      { gen := store.checkpointGen, seq := store.checkpointSeq, filesGen := store.filesGen }
    let drained := { store with pendingSync := [] }
    if store.checkpointDirty && !store.stream then
      -- The identities of the files may not be readable.
      if ok then (drained, .syncing plan (some store.completed) store.pendingSync [])
      else (store, .returned false)
    else (drained, .syncing plan none store.pendingSync [])

/-- The last section of a drain. -/
def finalize (plan : DrainPlan) (written ok : Bool) : CheckpointStore × Drain :=
  if store.checkpointGen ≠ plan.gen ∨ store.filesGen ≠ plan.filesGen then
    -- A failed removal is not looked at.
    ({ store with file := if ok then none else store.file }, .returned true)
  else if written then
    ({ store with
      checkpointDirty :=
        if store.checkpointSeq = plan.seq then false else store.checkpointDirty },
      .returned true)
  else (store, .returned false)

/-- A drain takes its next section or file operation, which succeeds or fails. -/
def drainStep : Drain -> CheckpointStore × Drain
  | .snapshot => store.snapshot ok
  | .syncing plan complete (file :: left) failed =>
    (store, .syncing plan complete left (if ok then failed else failed ++ [file]))
  | .syncing plan complete [] failed =>
    if failed.isEmpty then
      match complete with
      | none => (store, .returned true)
      | some flags => (store, .checking plan flags)
    else ({ store with pendingSync := store.pendingSync ++ failed }, .returned false)
  | .checking plan complete =>
    if store.closed || !store.attached || store.checkpointGen != plan.gen then
      (store, .returned true)
    else if store.filesGen ≠ plan.filesGen then (store, .returned false)
    else (store, .writing plan complete)
  | .writing plan complete =>
    (store, if ok then .naming plan complete else .finishing plan false)
  | .naming plan complete =>
    if ok then ({ store with file := some complete }, .finishing plan true)
    else (store, .finishing plan false)
  | .finishing plan written => store.finalize plan written ok
  | .returned result => (store, .returned result)

/-! ## The calls -/

/-- The last section of `close`. -/
def finishClose : CheckpointStore :=
  { store with
    closed := true
    checkpointGen := store.checkpointGen + 1
    filesGen := store.filesGen + 1
    attached := false
    completed := ∅
    closeReturned := true }

def idle : Bool :=
  !store.checkpointFlushing && !store.startupWriting

/-- The call takes the flag and begins a drain. -/
def beginDrain (task : DrainTask) : CheckpointStore :=
  { store with checkpointFlushing := true }.setTask id task

/-- The call gives the flag back. -/
def endDrain : CheckpointStore :=
  { store with checkpointFlushing := false }

/-- What must be published before the storage closes or after it was checked. -/
def markDirty : CheckpointStore :=
  { store with checkpointDirty := true, checkpointSeq := store.checkpointSeq + 1 }

/-- A call goes on with its drain. -/
def goOn (wrap : Drain -> DrainTask) (drain : Drain) : CheckpointStore :=
  (store.drainStep ok drain).1.setTask id (wrap (store.drainStep ok drain).2)

/-- A call takes its next section or file operation. -/
def run : DrainTask -> Option CheckpointStore
  | .scheduled drain =>
    if drain.over then
      let ended := store.endDrain.endTask id
      some (if ended.closed then ended else ended.scheduleCheckpointFlush)
    else some (store.goOn id ok .scheduled drain)
  | .verify =>
    if store.idle then some (store.markDirty.beginDrain id (.verifying .snapshot)) else none
  | .verifying drain =>
    if drain.over then some (store.endDrain.endTask id)
    else some (store.goOn id ok .verifying drain)
  | .close =>
    if !store.idle then none
    else if store.closed then some { store.endTask id with closeReturned := true }
    else if store.attached && !store.stream then
      some (store.markDirty.beginDrain id (.closing .snapshot))
    else some (store.finishClose.endTask id)
  | .closing drain =>
    if drain.over then some (store.endDrain.setTask id .closeLast)
    else some (store.goOn id ok .closing drain)
  | .closeLast =>
    if !store.idle then none
    else if store.closed then some { store.endTask id with closeReturned := true }
    else some (store.finishClose.endTask id)
  | .delete afterClose =>
    if ok then
      some { store.endTask id with file := none, removed := store.removed || afterClose }
    else some (store.endTask id)

def wake : CheckpointStore :=
  let awake := { store with checkpointFlushScheduled := false, timers := store.timers - 1 }
  if store.closed || !store.attached || store.stream || store.checkpointFlushing then awake
  else if !store.checkpointDirty && store.pendingSync.isEmpty then awake
  else awake.beginDrain id (.scheduled .snapshot)

/-- The end of `mark_complete`: the bytes are in some files, which are to be synced. -/
def markComplete (piece : Nat) (files : List Nat) : CheckpointStore :=
  { store with
    completed := store.completed.insert piece true
    pendingSync := store.pendingSync ++ files
    checkpointDirty := true
    checkpointSeq := store.checkpointSeq + 1 }.scheduleCheckpointFlush

/-- The section of `delete_checkpoint`. -/
def forgetCheckpoint : CheckpointStore :=
  { store with checkpointDirty := false, checkpointGen := store.checkpointGen + 1 }

end CheckpointStore

inductive DrainLabel where
  | markComplete (piece : Nat) (files : List Nat)
  /-- A startup piece of Direct Play begins or ends to be written. -/
  | startup (writing : Bool)
  | wake (id : Nat)
  | markVerified (id : Nat)
  | close (id : Nat)
  | deleteCheckpoint (id : Nat)
  /-- A call goes on.  A file operation succeeds or fails. -/
  | run (id : Nat) (ok : Bool)

namespace CheckpointStore

def step (store : CheckpointStore) : DrainLabel -> Option CheckpointStore
  | .markComplete piece files =>
    if store.closed || !store.attached then none else some (store.markComplete piece files)
  | .startup writing => some { store with startupWriting := writing }
  | .wake id =>
    if store.timers = 0 ∨ (store.tasks.lookup id).isSome then none else some (store.wake id)
  | .markVerified id =>
    if (store.tasks.lookup id).isSome then none else some (store.setTask id .verify)
  | .close id =>
    if (store.tasks.lookup id).isSome then none
    else if store.closed then some { store with closeReturned := true }
    else some (store.setTask id .close)
  | .deleteCheckpoint id =>
    if (store.tasks.lookup id).isSome then none
    else
      some (store.forgetCheckpoint.setTask id (.delete store.closeReturned))
  | .run id ok =>
    match store.tasks.lookup id with
    | none => none
    | some task => store.run id ok task

/-- A storage that is open, with or without files, and that no call is in.  A
checkpoint of an earlier run may be there. -/
def machine : Machine CheckpointStore DrainLabel where
  init store :=
    Exists fun attached : Bool => Exists fun stream : Bool => Exists fun completed : Flags =>
      Exists fun file : Option Flags =>
        store =
          { attached := attached, stream := stream, completed := completed, file := file }
  step := step

end CheckpointStore
end TorrentPlayer.Storage
