import TorrentPlayer.Storage.Checkpoint
import TorrentPlayer.Storage.FileBytes
import TorrentPlayer.Storage.WriteBack

namespace TorrentPlayer.Storage

open Library

/-!
# Attaching files

A torrent gets its storage once: files for a saved download, or memory and a
startup cache for Direct Play.  Both calls hold the lock from their first check
to their end.  They check the request, open and size the files, write what was
prepared in memory, and take over what is known to be complete.

What the file system answers is an argument of the calls.  The bytes of the files
are left out: a write only succeeds or fails.
-/

/-- Which open file belongs to a file of the torrent, and whether it was handed in
from outside. -/
structure FileHandle where
  file : Option Nat := none
  external : Bool := false

/-- The state that the layout calls work on. -/
structure LayoutInner extends StreamInner where
  infoHash : Vector UInt8 20
  hasInfo : Bool := true
  numPieces : Nat
  handles : List FileHandle := []
  filesGen : Nat := 0
  needsVerify : Bool := false
  identities : List FileIdentity := []
  checkpointDirty : Bool := false
  freezeTrusted : Bool := false
  directSelected : List Nat := []
  startupOrder : List Nat := []
  startupPlanned : Bool := false
  startupOnDisk : Flags := ∅
  streamWatch : Flags := ∅

/-- What the file system answers about one file.  `identity` is there if the
identity could be read. -/
structure FileAnswers where
  createDirAll : Option String := none
  /-- `dup` of a descriptor, or `open` of a part file. -/
  opened : Except String Nat
  metadata : Except String Nat
  identity : Option FileIdentity := none
  setLen : Option String := none

structure FileSystem where
  answers : Nat -> FileAnswers
  /-- The answer to each write, in their order. -/
  write : Nat -> Option String := fun _ => none
  checkpoint : Option PieceCheckpoint := none
  /-- The identities after the call has opened the files. -/
  identities : List FileIdentity := []
  /-- The startup cache has a file of the right length for a piece. -/
  startupFileOnDisk : Nat -> Bool := fun _ => false
  /-- The startup cache has the bytes of a piece, with the right digests. -/
  startupPieceValid : Nat -> Bool := fun _ => false

structure AttachRequest where
  descriptors : List (Option Int)
  selected : List Nat

def checkSelected (count : Nat) : List Nat -> List Nat -> Option StorageError
  | _, [] => none
  | chosen, index :: rest =>
    if count <= index ∨ index ∈ chosen then
      some (.other s!"invalid selected index {index}")
    else checkSelected count (index :: chosen) rest

def checkDownload (inner : LayoutInner) (request : AttachRequest) : Option StorageError :=
  if inner.closed then some .closed
  else if !inner.hasInfo then some (.other "metadata not ready")
  else if inner.attached then some (.other "storage already configured")
  else if request.descriptors.length ≠ inner.files.length then
    some (.other "descriptors count mismatch")
  else checkSelected inner.files.length [] request.selected

/-- Direct Play takes no descriptors. -/
def checkNoDescriptors : Nat -> List (Option Int) -> Option StorageError
  | _, [] => none
  | index, none :: rest => checkNoDescriptors (index + 1) rest
  | index, some _ :: _ =>
    some (.other s!"direct play rejects external descriptors for file {index}")

def checkDirect (inner : LayoutInner) (request : AttachRequest) : Option StorageError :=
  if inner.attached then some (.other "storage already attached")
  else if request.descriptors.length ≠ inner.files.length then
    some (.other "file descriptors do not match torrent files")
  else
    (checkNoDescriptors 0 request.descriptors).or (checkSelected inner.files.length [] request.selected)

def FileIdentity.blank : FileIdentity where
  external := false
  dev := 0
  ino := 0
  length := 0
  modNano := 0
  path := Text.lossy []

/-- The end of opening a file: it gets its length. -/
def sizeFile (answers : FileAnswers) (length found size : Nat) (external : Bool) :
    Except StorageError (FileHandle × FileIdentity) :=
  match answers.setLen with
  | some text => .error (.io text)
  | none =>
    .ok ({ file := some found, external := external },
      if size = length then answers.identity.getD FileIdentity.blank else FileIdentity.blank)

/-- Open and size one file.  Also answers whether it is one from outside with
bytes in it, which is noted before it is sized. -/
def openFile (answers : FileAnswers) (index length : Nat) (descriptor : Option Int) :
    Except StorageError (FileHandle × FileIdentity) × Bool :=
  match descriptor with
  | some fd =>
    if fd < 0 then (.error (.other s!"invalid fd for file {index}"), false)
    else
      match answers.opened, answers.metadata with
      | .error text, _ | .ok _, .error text => (.error (.io text), false)
      | .ok found, .ok size => (sizeFile answers length found size true, decide (0 < size))
  | none =>
    match answers.createDirAll, answers.opened, answers.metadata with
    | some text, _, _ | none, .error text, _ | none, .ok _, .error text =>
      (.error (.io text), false)
    | none, .ok found, .ok size => (sizeFile answers length found size false, false)

/-- The loop over the files.  Also answers whether a file with bytes was noted. -/
def openFiles (system : FileSystem) : Nat -> List (FileDescriptor × Option Int) ->
    Except StorageError (List (FileHandle × FileIdentity)) × Bool
  | _, [] => (.ok [], false)
  | index, (file, descriptor) :: rest =>
    match openFile (system.answers index) index file.length descriptor with
    | (.error failure, noted) => (.error failure, noted)
    | (.ok found, noted) =>
      match openFiles system (index + 1) rest with
      | (.error failure, later) => (.error failure, noted || later)
      | (.ok others, later) => (.ok (found :: others), noted || later)

/-- The loop of `writeToFiles`, with the number of writes so far. -/
def writeLoop (write : Nat -> Option String) (start stop : Nat) :
    List FileDescriptor -> Nat -> Nat -> Except StorageError Nat × Nat
  | [], done, writes => (.ok done, writes)
  | file :: rest, done, writes =>
    let first := max start file.offset
    let last := min stop (file.offset + file.length)
    let path := file.path
    if last <= first then writeLoop write start stop rest done writes
    else if !file.opened then (.error (.other s!"storage for {path} is not configured"), writes)
    else
      match write writes with
      | some text => (.error (.io text), writes + 1)
      | none => writeLoop write start stop rest (done + (last - first)) (writes + 1)

def writeRange (write : Nat -> Option String) (files : List FileDescriptor) (start count : Nat)
    (writes : Nat) : Option StorageError × Nat :=
  match writeLoop write start (start + count) (filesOverlapping files start (start + count)) 0 writes with
  | (.error failure, later) => (some failure, later)
  | (.ok done, later) =>
    if done = count then (none, later) else (some (.other "short write to files"), later)

def writeRanges (write : Nat -> Option String) (files : List FileDescriptor) :
    List ByteRange -> Nat -> Option StorageError × Nat
  | [], writes => (none, writes)
  | range :: rest, writes =>
    match writeRange write files range.start (range.stop - range.start) writes with
    | (some failure, later) => (some failure, later)
    | (none, later) => writeRanges write files rest later

def FileDescriptor.nowOpen (file : FileDescriptor) : FileDescriptor :=
  { file with opened := true }

namespace LayoutInner

/-- The ranges of the torrent that the slots hold and that go to the files. -/
def preparedRanges (inner : LayoutInner) : List ByteRange :=
  inner.cache.entries.flatMap (fun entry =>
    let spans := ((inner.dirtySpans.lookup entry.1).map Ranges.list).getD
      [{ start := 0, stop := entry.2.len }]
    spans.map (fun span =>
      { start := inner.address entry.1 span.start, stop := inner.address entry.1 span.stop }))

end LayoutInner

def fileStable (saved current : FileIdentity) : Bool :=
  if saved.dev = 0 /\ saved.ino = 0 then false
  else if saved.external ≠ current.external ∨ saved.length ≠ current.length ∨
      saved.dev ≠ current.dev ∨ saved.ino ≠ current.ino then false
  else if !saved.external /\ saved.path ≠ current.path then false
  else true

namespace LayoutInner

variable (inner : LayoutInner)

def pieceFilesStable (piece : Nat) (saved current : List FileIdentity) : Bool :=
  let start := inner.address piece 0
  let range := overlappingFileRange inner.files start (start + inner.pieceLength piece)
  ((List.range range.2).drop range.1).all (fun index =>
    fileStable (saved.getD index FileIdentity.blank) (current.getD index FileIdentity.blank))

/-- Take over what a checkpoint says, if it is one of these files. -/
def loadCheckpoint (checkpoint : Option PieceCheckpoint)
    (identities : List FileIdentity) : Bool × LayoutInner :=
  match checkpoint with
  | none => (false, inner)
  | some saved =>
    if saved.infoHash ≠ inner.infoHash ∨ saved.pieceLength.toInt ≠ inner.chunkLength ∨
        saved.numPieces ≠ inner.numPieces then (false, inner)
    else if saved.files.length ≠ identities.length then (false, inner)
    else
      let trusted := (List.range saved.complete.length).filter (fun piece =>
        saved.complete.getD piece false && inner.pieceFilesStable piece saved.files identities)
      (true, { inner with
        completed := trusted.foldl (fun flags piece => flags.insert piece true) inner.completed })

/-- Slots that were prepared in part keep what they have. -/
def notePrepared (spans : FiniteMap Nat Ranges) : LayoutInner :=
  spans.entries.foldl (fun noted entry =>
    match noted.cache.lookup entry.1 with
    | none => noted
    | some slot =>
      if rangesCover entry.2.list 0 slot.len then noted
      else
        { noted with
          partialSlots := noted.partialSlots.insert entry.1 entry.2
          savedPartial := noted.savedPartial.insert entry.1 true }) inner

/-! ## The calls -/

/-- The handles are in place, and the memory is that of a download. -/
def installed (handles : List FileHandle) : LayoutInner :=
  { inner with
    files := inner.files.map FileDescriptor.nowOpen
    handles := handles
    filesGen := inner.filesGen + 1
    stream := false
    attached := true
    maxCacheBytes := savedDownloadCacheBytes inner.downloadMaxBytes inner.chunkLength }

def noteVerify (noted : Bool) : LayoutInner :=
  { inner with needsVerify := inner.needsVerify || noted }

def writePrepared (system : FileSystem) : Option StorageError :=
  (writeRanges system.write inner.files inner.preparedRanges 0).1

/-- What follows the last step that can fail. -/
def finishDownload (system : FileSystem) (before : List FileIdentity) : LayoutInner :=
  let written := { inner with cacheDirty := ∅, dirtySpans := ∅, flushNew := ∅ }
  let kept : LayoutInner :=
    if written.maxCacheBytes < written.cacheBytes then
      { written with cache := ∅, cacheBytes := 0, cacheOrder := [] }
    else written
  let noted := kept.notePrepared inner.dirtySpans
  let loaded := noted.loadCheckpoint system.checkpoint before
  let captured := { loaded.2 with identities := system.identities }
  if loaded.1 then { captured with checkpointDirty := true, freezeTrusted := true } else captured

def attachDownload (system : FileSystem) (request : AttachRequest) :
    Except StorageError Unit × LayoutInner :=
  match checkDownload inner request with
  | some failure => (.error failure, inner)
  | none =>
    match openFiles system 0 (inner.files.zip request.descriptors) with
    | (.error failure, noted) => (.error failure, inner.noteVerify noted)
    | (.ok opened, noted) =>
      let ready := (inner.noteVerify noted).installed (opened.map Prod.fst)
      match ready.writePrepared system with
      | some failure => (.error failure, ready)
      | none => (.ok (), ready.finishDownload system (opened.map Prod.snd))

/-- A preview gives its memory back. -/
def releasePreviewTemp : LayoutInner :=
  if !inner.previewTemp then inner
  else
    { inner with
      previewTemp := false
      maxCacheBytes := inner.downloadMaxBytes
      attached := false
      stream := false
      cache := ∅
      cacheDirty := ∅
      cacheBytes := 0
      dirtySpans := ∅
      flushNew := ∅
      partialSlots := ∅
      savedPartial := ∅
      cacheOrder := []
      completed := ∅
      startupPieces := ∅
      startupSaved := ∅
      streamDemand := ∅
      streamLost := ∅
      streamWhole := ∅
      streamRanges := ∅ }

end LayoutInner

def maxRamCacheBytes : Int := 1024 * 1024 * 1024

def defaultStreamCacheMaxBytes : Int := 50 * 1024 * 1024

def directPlayMinPieces : Nat := 4

def directStartupHead : Nat := 2 * 2 ^ 20

def directStartupTail : Nat := 2 * 2 ^ 20

def directStartupBudget : Nat := 8 * 2 ^ 20

def directStartupTotalBudget : Nat := 2 ^ 30

def videoExtensions : List String :=
  ["mp4", "m4v", "mkv", "webm", "avi", "mov", "wmv", "flv", "ts", "m2ts", "mts", "vob", "f4v",
    "mpg", "mpeg", "m2v", "3gp", "ogv", "iso"]

/-- The text behind the last point is one of a film. -/
def isVideoFileName (name : String) : Bool :=
  match (name.toLower.splitOn ".").reverse with
  | extension :: _ :: _ => videoExtensions.contains extension
  | _ => false

/-- The pieces of the first and the last bytes of a file. -/
def startupFilePieces (file : FileDescriptor) (chunk : Nat) : List Nat :=
  if chunk = 0 then []
  else
    let spans : List ByteRange :=
      [{ start := file.offset, stop := file.offset + min file.length directStartupHead },
        { start := file.offset + (file.length - directStartupTail)
          stop := file.offset + file.length }]
    (spans.flatMap (fun span =>
      if span.stop <= span.start then []
      else
        (List.range ((span.stop - 1) / chunk + 1)).drop (span.start / chunk))).foldl
      (fun pieces piece => if piece ∈ pieces then pieces else pieces ++ [piece]) []

namespace LayoutInner

/-- Pieces in their order, each once, as long as they fit into the budget. -/
def withinBudget (inner : LayoutInner) : List Nat -> Nat -> List Nat -> List Nat
  | order, _, [] => order
  | order, budget, piece :: rest =>
    if piece ∈ order then inner.withinBudget order budget rest
    else if directStartupTotalBudget < budget + inner.pieceLength piece then order
    else inner.withinBudget (order ++ [piece]) (budget + inner.pieceLength piece) rest

variable (inner : LayoutInner) (system : FileSystem)

def startupPlan : List Nat :=
  let films := (inner.directSelected.mergeSort (fun first second => first <= second)).filterMap
    (fun index => (inner.files[index]?).filter (fun file => isVideoFileName file.path))
  inner.withinBudget [] 0 (films.flatMap (fun file => startupFilePieces file inner.chunkLength))

/-- Note the startup pieces.  Those within a budget are checked at once; of the
others only the length of their file is looked at. -/
def planStartup (system : FileSystem) : List Nat -> Nat -> LayoutInner × List Nat -> LayoutInner × List Nat
  | [], _, progress => progress
  | piece :: rest, bytes, (inner, quick) =>
    let noted := { inner with startupPieces := inner.startupPieces.insert piece true }
    if bytes + inner.pieceLength piece <= directStartupBudget then
      planStartup system rest (bytes + inner.pieceLength piece) (noted, quick ++ [piece])
    else if system.startupFileOnDisk piece then
      planStartup system rest bytes
        ({ noted with startupOnDisk := noted.startupOnDisk.insert piece true }, quick)
    else planStartup system rest bytes (noted, quick)

def validateStartupPieces (planned : List Nat) : LayoutInner :=
  let seen := { inner with
    startupOnDisk := planned.foldl (fun flags piece => flags.erase piece) inner.startupOnDisk }
  (planned.filter system.startupPieceValid).foldl (fun state piece =>
    { state with
      cache := state.cache.erase piece
      streamRanges := state.streamRanges.erase piece
      streamWhole := state.streamWhole.erase piece
      streamLost := state.streamLost.erase piece
      startupSaved := state.startupSaved.insert piece true
      completed := state.completed.insert piece true }) seen

/-- What follows the last check. -/
def finishDirect (selected : List Nat) : LayoutInner :=
  let chosen := { inner with directSelected := selected }
  let cleared :=
    { chosen with
      startupOrder := chosen.startupPlan
      startupPlanned := false
      startupPieces := ∅
      startupSaved := ∅
      startupOnDisk := ∅
      streamDemand := ∅
      streamLost := ∅
      streamWhole := ∅
      streamRanges := ∅
      streamWatch := ∅ }
  let planned := planStartup system cleared.startupOrder 0 (cleared, [])
  let validated := planned.1.validateStartupPieces system planned.2
  { validated with
    cache := ∅
    cacheDirty := ∅
    cacheBytes := 0
    dirtySpans := ∅
    flushNew := ∅
    partialSlots := ∅
    savedPartial := ∅
    cacheOrder := []
    streamRevision := validated.streamRevision + 1 }

/-- The memory of Direct Play, before it is raised to the least it needs. -/
def streamLimit : Int :=
  if inner.streamMaxBytes <= 0 then defaultStreamCacheMaxBytes else inner.streamMaxBytes

/-- The product may wrap around. -/
def directPlayMinimum : Int :=
  (Int64.ofInt (directPlayMinPieces * inner.chunkLength)).toInt

def beginDirect : LayoutInner :=
  { inner with stream := true, attached := true, maxCacheBytes := inner.streamLimit }

/-- The flags are set back.  The limit is not. -/
def giveUpDirect : LayoutInner :=
  { inner with stream := false, attached := false }

def sizeDirect : LayoutInner :=
  { inner with maxCacheBytes := max inner.maxCacheBytes inner.directPlayMinimum }

def attachDirectPlay (request : AttachRequest) : Except StorageError Unit × LayoutInner :=
  if inner.closed || !inner.hasInfo then
    (.error (.other "storage closed or missing info"), inner)
  else
    let released := inner.releasePreviewTemp
    match checkDirect released request with
    | some failure => (.error failure, released)
    | none =>
      let begun := released.beginDirect
      if maxRamCacheBytes < begun.directPlayMinimum then
        (.error (.other "piece exceeds direct play memory budget; use Download"), begun.giveUpDirect)
      else (.ok (), begun.sizeDirect.finishDirect system request.selected)

def attachDescriptorsMode (request : AttachRequest)
    (stream : Bool) : Except StorageError Unit × LayoutInner :=
  if stream then inner.attachDirectPlay system request else inner.attachDownload system request

end LayoutInner
end TorrentPlayer.Storage
