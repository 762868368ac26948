import TorrentPlayer.Library.Machine
import TorrentPlayer.Storage.Inner

namespace TorrentPlayer.Storage

open Library

/-!
# The write-back store of a saved download

Writes go into memory slots and reach the files later, when a piece is complete
or its slot has to go.  File operations run without the lock.  So a write, a
read, a flush and an eviction are each a sequence of sections under the lock
and of file operations between them, and the sections of different calls
interleave.

The machine runs any number of calls.  A step is one section, or one operation
on one file.  A section that goes on after a decision is cut in two here, which
only adds interleavings.
-/

/-- A call of `write_at`, with the data by position in the piece. -/
structure WriteCall where
  piece : Nat
  range : ByteRange
  data : Nat -> UInt8

/-- A call of `read_at`.  `known` are the positions whose bytes had been accepted
when it began. -/
structure ReadCall where
  piece : Nat
  range : ByteRange
  known : Nat -> Bool

/-- Bytes to write to the files, by position in the torrent. -/
structure PieceFlush where
  parts : List ByteRange
  data : Nat -> UInt8

namespace StorageInner

variable (inner : StorageInner) (index : Nat) (range : ByteRange)

def noteCreated (created : Bool) (index : Nat) : StorageInner :=
  if created then { inner with partialSlots := inner.partialSlots.insert index Ranges.empty }
  else inner

/-- A slot that is being written to the files now has newer bytes. -/
def noteRace : StorageInner :=
  if index ∈ inner.flushing then
    { inner with
      flushRaced := insert index inner.flushRaced
      flushNew := inner.flushNew.insert index
        (((inner.flushNew.lookup index).getD Ranges.empty).insert range) }
  else inner

def copyIn (data : Nat -> UInt8) : StorageInner :=
  match inner.cache.lookup index with
  | none => inner
  | some slot => { inner with cache := inner.cache.insert index (slot.write range data) }

/-- What a slot that was not loaded from the files has received. -/
def notePartial (expected : Nat) : StorageInner :=
  match inner.partialSlots.lookup index with
  | none => inner
  | some written =>
    if (written.insert range).IsWhole expected then
      { inner with partialSlots := inner.partialSlots.erase index }
    else
      { inner with partialSlots := inner.partialSlots.insert index (written.insert range) }

def noteDirty : StorageInner :=
  { inner with
    cacheDirty := inner.cacheDirty.insert index true
    dirtySpans := inner.dirtySpans.insert index
      (((inner.dirtySpans.lookup index).getD Ranges.empty).insert range) }

/-- The end of a write into a slot. -/
def finishWrite (created : Bool) (call : WriteCall) : StorageInner :=
  ((((((inner.noteCreated created call.piece).noteRace call.piece call.range).copyIn
    call.piece call.range call.data).notePartial call.piece call.range
      (inner.pieceLength call.piece)).noteDirty call.piece call.range).touch call.piece)

def markSavedPartial : StorageInner :=
  if inner.completed.get index then inner
  else { inner with savedPartial := inner.savedPartial.insert index true }

/-- The parts of some spans of a piece that begins at a position. -/
def planSpans (files : List FileDescriptor) (base : Nat) :
    List ByteRange -> Except StorageError (List ByteRange)
  | [] => .ok []
  | span :: rest =>
    match planFileReads files (base + span.start) (span.stop - span.start) with
    | .error failure => .error failure
    | .ok parts =>
      match planSpans files base rest with
      | .error failure => .error failure
      | .ok more => .ok (parts ++ more)

/-- Plan to write what is not in the files, from a copy of the slot. -/
def planPieceFlush : Except StorageError (Option PieceFlush) :=
  if !inner.cacheDirty.get index then .ok none
  else
    match inner.cache.lookup index with
    | none => .ok none
    | some slot =>
      let base := inner.address index 0
      let data := fun position => slot.byte (position - base)
      match inner.dirtySpans.lookup index, inner.partialSlots.lookup index with
      | none, some _ => .ok (some { parts := [], data := data })
      | none, none =>
        (planSpans inner.files base [{ start := 0, stop := slot.len }]).map
          (fun parts => some { parts := parts, data := data })
      | some spans, _ =>
        (planSpans inner.files base spans.list).map
          (fun parts => some { parts := parts, data := data })

def beginFlush : StorageInner :=
  { inner with
    flushing := insert index inner.flushing
    flushRaced := inner.flushRaced.erase index
    flushNew := inner.flushNew.erase index }

/-- What was received while the piece was being written, if it still matters. -/
def arrivedMeanwhile : Option Ranges :=
  if index ∈ inner.flushRaced then
    (inner.flushNew.lookup index).filter (fun arrived =>
      !arrived.list.isEmpty && (inner.cache.lookup index).isSome)
  else none

/-- The bytes are in the files.  Answers whether nothing is left to write. -/
def publishFlush (wrote : Bool) : Bool × StorageInner :=
  let released :=
    { inner with
      flushing := inner.flushing.erase index
      flushRaced := inner.flushRaced.erase index
      flushNew := inner.flushNew.erase index }
  let marked := if wrote then released.markSavedPartial index else released
  match inner.arrivedMeanwhile index with
  | some arrived =>
    (false,
      { marked with
        dirtySpans := marked.dirtySpans.insert index arrived
        cacheDirty := marked.cacheDirty.insert index true })
  | none =>
    (true,
      { marked with
        cacheDirty := marked.cacheDirty.insert index false
        dirtySpans := marked.dirtySpans.erase index })

/-- Put what was read from the files into a slot, except where it has newer bytes. -/
def publishFill (len : Nat) (data : Nat -> UInt8) : StorageInner :=
  match inner.partialSlots.lookup index, inner.cache.lookup index with
  | some kept, some slot =>
    if slot.len = len then
      { inner with
        cache := inner.cache.insert index (slot.fill kept data)
        partialSlots := inner.partialSlots.erase index }
    else inner
  | _, _ => inner

/-- A read of a range has to load the slot from the files first. -/
def needsFill : Bool :=
  match inner.partialSlots.lookup index with
  | none => false
  | some written => !rangesCover written.list range.start range.stop

end StorageInner

/-! ## Calls in progress -/

inductive AfterFlush where
  /-- Drop the slot and go on with a write. -/
  | evict (call : WriteCall) (attempts : Nat)
  | complete
  | fill (call : ReadCall)

inductive Task where
  /-- A write before a round of its loop. -/
  | write (call : WriteCall) (attempts : Nat)
  /-- A write that waited for another call to leave the piece. -/
  | owned (call : WriteCall) (attempts : Nat)
  | flush (piece : Nat) (next : AfterFlush)
  /-- A flush that writes to the files. -/
  | flushing (piece : Nat) (parts : List ByteRange) (data : Nat -> UInt8) (wrote : Bool)
      (next : AfterFlush)
  /-- A write that goes to the files directly. -/
  | through (call : WriteCall) (parts : List ByteRange)
  | filling (call : ReadCall) (len : Nat) (parts : List ByteRange) (data : Nat -> UInt8)
      (begun : Bool)
  /-- A read of a piece that has no slot. -/
  | reading (call : ReadCall) (parts : List ByteRange) (data : Nat -> UInt8)

/-- What a read returned, by position in the piece. -/
structure Served where
  call : ReadCall
  range : ByteRange
  data : Nat -> UInt8

structure World where
  inner : StorageInner
  /-- The bytes of the files, by position in the torrent. -/
  disk : Nat -> UInt8
  tasks : FiniteMap Nat Task := ∅
  /-- The positions of a piece whose bytes a write has accepted. -/
  accepted : Nat -> Nat -> Bool := fun _ _ => false
  served : List Served := []
  /-- How many calls have returned an error. -/
  failures : Nat := 0

namespace World

variable (world : World) (id : Nat) (call : WriteCall)

def setTask (task : Task) : World :=
  { world with tasks := world.tasks.insert id task }

def endTask : World :=
  { world with tasks := world.tasks.erase id }

/-- A call returns an error. -/
def fail : World :=
  { world.endTask id with failures := world.failures + 1 }

def withInner (inner : StorageInner) : World :=
  { world with inner := inner }

def accept : World :=
  { world with
    accepted := fun piece position =>
      world.accepted piece position ||
        decide (piece = call.piece /\ call.range.Contains position) }

/-- One file operation: write a part of the torrent. -/
def writePart (part : ByteRange) (data : Nat -> UInt8) : World :=
  { world with
    disk := fun position => if part.Contains position then data position else world.disk position }

/-- One file operation: read a part of the torrent. -/
def readPart (part : ByteRange) (data : Nat -> UInt8) : Nat -> UInt8 :=
  fun position => if part.Contains position then world.disk position else data position

/-- The write goes to the files, unless the piece has a slot or an owner by now. -/
def writeThrough (attempts : Nat) : World :=
  if (world.inner.cache.lookup call.piece).isSome || decide (call.piece ∈ world.inner.flushing) then
    world.setTask id (.write call (attempts + 1))
  else
    match planFileReads world.inner.files (world.inner.address call.piece call.range.start)
        (call.range.stop - call.range.start) with
    | .error _ => world.fail id
    | .ok parts =>
      (world.withInner { world.inner with
        flushing := insert call.piece world.inner.flushing }).setTask id (.through call parts)

/-- The section of a write from the slot on. -/
def ensure (attempts : Nat) : Option World :=
  match world.inner.ensureCacheSlot call.piece (world.inner.pieceLength call.piece) with
  | none => none
  | some (.ready created, inner) =>
    some (((world.withInner (inner.finishWrite created call)).accept call).endTask id)
  | some (.flushFirst victim, inner) =>
    if attempts <= 8 then
      some ((world.withInner { inner with evicting := insert victim inner.evicting }).setTask id
        (.flush victim (.evict call attempts)))
    else some ((world.withInner inner).writeThrough id call attempts)
  | some (.failed _, inner) => some ((world.withInner inner).writeThrough id call attempts)

def evicted (piece : Nat) (flushed : Bool) (call : WriteCall) (attempts : Nat) : World :=
  let clean := flushed && !world.inner.cacheDirty.get piece && decide (piece ∉ world.inner.flushing)
  let dropped := if clean then world.inner.dropCache piece else world.inner
  let after := world.withInner { dropped with evicting := dropped.evicting.erase piece }
  if clean then after.setTask id (.write call (attempts + 1))
  else after.writeThrough id call attempts

/-- The read serves a slot, or plans to read from the files. -/
def readNow (call : ReadCall) : World :=
  let stop := min call.range.stop (world.inner.pieceLength call.piece)
  let range : ByteRange := { start := call.range.start, stop := stop }
  match world.inner.cache.lookup call.piece with
  | some slot =>
    { world.endTask id with
      served := { call := call, range := range, data := slot.byte } :: world.served }
  | none =>
    match planFileReads world.inner.files (world.inner.address call.piece range.start)
        (range.stop - range.start) with
    | .error _ => world.fail id
    | .ok parts => world.setTask id (.reading call parts (fun _ => 0))

/-- The fill is over.  The piece counts as used, also when its slot is gone. -/
def readFilled (call : ReadCall) : World :=
  (world.withInner (world.inner.touch call.piece)).readNow id call

def planFill (call : ReadCall) : World :=
  match world.inner.cache.lookup call.piece, world.inner.partialSlots.lookup call.piece with
  | some slot, some _ =>
    match planFileReads world.inner.files (world.inner.address call.piece 0) slot.len with
    | .error _ => world.fail id
    | .ok parts => world.setTask id (.filling call slot.len parts (fun _ => 0) false)
  | _, _ => world.readFilled id call

/-- A flush is over.  `clean` says whether nothing is left to write. -/
def flushed (piece : Nat) (clean : Bool) : AfterFlush -> World
  | .evict call attempts =>
    if clean then world.evicted id piece true call attempts
    else world.setTask id (.flush piece (.evict call attempts))
  | .complete =>
    if clean then
      (world.withInner
        { world.inner with
          completed := world.inner.completed.insert piece true
          savedPartial := world.inner.savedPartial.erase piece }).endTask id
    else world.setTask id (.flush piece .complete)
  | .fill call => world.planFill id call

/-- A flush could not be planned. -/
def flushFailed (piece : Nat) : AfterFlush -> World
  | .evict call attempts => world.evicted id piece false call attempts
  | .complete | .fill _ => world.fail id

/-- A call takes its next section or file operation. -/
def run : Task -> Option World
  | .write call attempts =>
    if call.piece ∈ world.inner.evicting then none
    else if (world.inner.cache.lookup call.piece).isNone && decide (call.piece ∈ world.inner.flushing)
    then some (world.setTask id (.owned call attempts))
    else world.ensure id call attempts
  | .owned call attempts =>
    if (world.inner.cache.lookup call.piece).isNone && decide (call.piece ∈ world.inner.flushing)
    then none
    else world.ensure id call attempts
  | .flush piece next =>
    if piece ∈ world.inner.flushing then none
    else
      match world.inner.planPieceFlush piece with
      | .error _ => some (world.flushFailed id piece next)
      | .ok none => some (world.flushed id piece true next)
      | .ok (some plan) =>
        some ((world.withInner (world.inner.beginFlush piece)).setTask id
          (.flushing piece plan.parts plan.data (!plan.parts.isEmpty) next))
  | .flushing piece (part :: parts) data wrote next =>
    some ((world.writePart part data).setTask id (.flushing piece parts data wrote next))
  | .flushing piece [] _ wrote next =>
    let published := world.inner.publishFlush piece wrote
    some ((world.withInner published.2).flushed id piece published.1 next)
  | .through call (part :: parts) =>
    some ((world.writePart part (fun position =>
      call.data (position - world.inner.address call.piece 0))).setTask id (.through call parts))
  | .through call [] =>
    let marked := world.inner.markSavedPartial call.piece
    some (((world.withInner { marked with flushing := marked.flushing.erase call.piece }).accept
      call).endTask id)
  | .filling call len (part :: parts) data _ =>
    some (world.setTask id (.filling call len parts (world.readPart part data) true))
  | .filling call len [] data _ =>
    some ((world.withInner (world.inner.publishFill call.piece len (fun position =>
      data (world.inner.address call.piece position)))).readFilled id call)
  | .reading call (part :: parts) data =>
    some (world.setTask id (.reading call parts (world.readPart part data)))
  | .reading call [] data =>
    let stop := min call.range.stop (world.inner.pieceLength call.piece)
    some
      { world.endTask id with
        served :=
          { call := call
            range := { start := call.range.start, stop := stop }
            data := fun position => data (world.inner.address call.piece position) } ::
            world.served }

end World

/-- A call begins, or a call goes on. -/
inductive StoreLabel where
  | writeAt (id piece : Nat) (range : ByteRange)
  | markComplete (id piece : Nat)
  | readAt (id piece : Nat) (range : ByteRange)
  | run (id : Nat)

namespace World

/-- A call begins, if the name is free.  All writes carry the bytes of one
torrent, `content`. -/
def step (content : Nat -> UInt8) (world : World) : StoreLabel -> Option World
  | .writeAt id piece range =>
    if (world.tasks.lookup id).isNone && decide (range.start < range.stop) &&
        decide (range.stop <= world.inner.pieceLength piece) then
      some (world.setTask id (.write
          { piece := piece
            range := range
            data := fun position => content (world.inner.address piece position) } 1))
    else none
  | .markComplete id piece =>
    if (world.tasks.lookup id).isNone then some (world.setTask id (.flush piece .complete))
    else none
  | .readAt id piece range =>
    let call : ReadCall := { piece := piece, range := range, known := world.accepted piece }
    if (world.tasks.lookup id).isNone && decide (range.start < world.inner.pieceLength piece) then
      if (world.inner.cache.lookup piece).isNone then some (world.readNow id call)
      else if world.inner.needsFill piece range then
        some (world.setTask id (.flush piece (.fill call)))
      else some (world.readFilled id call)
    else none
  | .run id =>
    match world.tasks.lookup id with
    | none => none
    | some task => world.run id task

end World

/-- The memory that a saved download may take. -/
def savedDownloadCacheBytes (setting : Int) (pieceLength : Nat) : Int :=
  max (max setting (256 * 1024 * 1024)) (min (8 * pieceLength) (512 * 1024 * 1024))

namespace World

/-- A download whose files are open and that holds nothing in memory. -/
def attached (chunkLength : Nat) (files : List (Nat × String)) (setting : Int)
    (completed : Flags) (disk : Nat -> UInt8) : World where
  inner :=
    { chunkLength := chunkLength
      totalLength := (files.map Prod.fst).sum
      files := (descriptors 0 files).map (fun file => { file with opened := true })
      attached := true
      maxCacheBytes := savedDownloadCacheBytes setting chunkLength
      completed := completed }
  disk := disk

def machine (content : Nat -> UInt8) : Machine World StoreLabel where
  init world :=
    Exists fun chunkLength : Nat => Exists fun files : List (Nat × String) =>
      Exists fun setting : Int => Exists fun completed : Flags =>
        Exists fun disk : Nat -> UInt8 =>
          world = attached chunkLength files setting completed disk
  step := step content

end World
end TorrentPlayer.Storage
