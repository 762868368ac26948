import Mathlib.Data.Finset.Insert
import TorrentPlayer.Core.Torrent
import TorrentPlayer.Library.Machine

namespace TorrentPlayer.Core

open Library

/-!
# Serving blocks to peers

`handle_request` of `peer_conn.rs` with the storage reads of `torrent_impls.rs`
and the part of a connection handle they use.  A request passes the choke
state, the upload policy and a reservation; its block is then copied from RAM,
or read from disk, at once or by a task that runs later.

What the storage holds is a function from a piece and a position in it to a
byte.  A read inside the piece returns all of its bytes or fails; which of the
two, and whether the bytes are in RAM, the environment decides.
-/

/-- The fields of the choke configuration and of a peer's counters that the
policy looks at. -/
structure UploadPolicy where
  noUpload : Bool := false
  dataUploadDisallowed : Bool := false
  seeding : Bool := false
  titForTatHeadroom : Int64 := 8388608
  bytesUploaded : Int64 := 0
  bytesDownloaded : Int64 := 0

def defaultTitForTatHeadroom : Int64 := 8388608

/-- Addition that stays at the ends of the 64-bit range. -/
def saturatingAdd (a b : Int64) : Int64 :=
  Int64.ofInt (max (-2 ^ 63) (min (2 ^ 63 - 1) (a.toInt + b.toInt)))

def uploadAllowed (policy : UploadPolicy) (peerHasWantedPieces : Bool) : Bool :=
  if policy.noUpload || policy.dataUploadDisallowed then false
  else if policy.seeding then true
  else if !peerHasWantedPieces then false
  else
    let headroom :=
      if 0 <= policy.titForTatHeadroom then policy.titForTatHeadroom
      else defaultTitForTatHeadroom
    !decide (saturatingAdd policy.bytesDownloaded headroom <= policy.bytesUploaded)

/-- A block that was sent.  The last three fields are kept for the account
only: whether the piece was complete when the block was read, what the piece
held then, and whether the peer was choked when its request was handled. -/
structure Upload where
  index : UInt32
  start : UInt32
  length : UInt32
  data : List UInt8
  complete : Bool
  source : Nat -> UInt8
  choked : Bool

inductive Outgoing where
  | choke
  | unchoke
  | allowedFast (index : UInt32)
  | reject (index start length : UInt32)
  | piece (upload : Upload)

/-- A block that a task is to read from disk. -/
structure PendingRead where
  index : UInt32
  start : UInt32
  length : UInt32
  choked : Bool

structure UploadConn where
  amChoking : Bool := true
  peerAllowedFast : Finset UInt32 := ∅
  queuedUploads : Nat := 0
  closed : Bool := false
  reads : List PendingRead := []
  /-- Every message queued so far. -/
  outbox : List Outgoing := []
  /-- How many of them the writer has taken. -/
  taken : Nat := 0

def localClientReqq : Nat := 512

inductive CoreError where
  | noInfo
  | other (message : String)

/-- Whether the bytes are in RAM, and if so whether the copy failed. -/
inductive RamRead where
  | onDisk
  | copied
  | failed (message : String)

namespace UploadConn

def sendMessage (conn : UploadConn) (message : Outgoing) : UploadConn :=
  if conn.closed then conn else { conn with outbox := conn.outbox ++ [message] }

def releaseUpload (conn : UploadConn) : UploadConn :=
  { conn with queuedUploads := conn.queuedUploads - 1 }

/-- Queue a block, or give its reservation back. -/
def sendPiece (conn : UploadConn) (upload : Upload) : UploadConn :=
  if conn.closed then conn.releaseUpload else conn.sendMessage (.piece upload)

end UploadConn

abbrev Stored := Nat -> Nat -> UInt8

/-- A read from one piece: as many bytes as the piece has from there. -/
def readAt (info : Info) (stored : Stored) (piece start length : Nat) : List UInt8 :=
  if info.pieceLen piece <= start then []
  else
    (List.range (min (info.pieceLen piece - start) length)).map (fun k => stored piece (start + k))

def outOfRange (info : Info) (piece start length : Nat) : Bool :=
  info.numPieces <= piece || info.pieceLen piece < start + length

def readChunkInMemory (torrent : Torrent) (stored : Stored) (piece start length : Nat)
    (ram : RamRead) : Option (Except CoreError (List UInt8)) :=
  match torrent.info with
  | none => none
  | some info =>
    if outOfRange info piece start length then none
    else
      match ram with
      | .onDisk => none
      | .copied => some (.ok (readAt info stored piece start length))
      | .failed message => some (.error (.other message))

def readChunk (torrent : Torrent) (stored : Stored) (piece start length : Nat)
    (failure : Option String) : Except CoreError (List UInt8) :=
  match torrent.info with
  | none => .error .noInfo
  | some info =>
    if outOfRange info piece start length then .error (.other "invalid piece range")
    else
      match failure with
      | some message => .error (.other message)
      | none => .ok (readAt info stored piece start length)

/-! ## Requests -/

/-- What the environment decides about one request. -/
structure RequestTurn where
  policy : UploadPolicy := {}
  ram : RamRead := .copied
  /-- A task can be started for the disk read. -/
  spawns : Bool := true
  failure : Option String := none

namespace UploadConn

def readBlock (torrent : Torrent) (stored : Stored) (index start length : UInt32)
    (choked : Bool) (data : List UInt8) : Upload where
  index := index
  start := start
  length := length
  data := data
  complete := torrent.pieceComplete index.toNat
  source := stored index.toNat
  choked := choked

variable (conn : UploadConn) (index : UInt32)

/-- The request is answered by a block and not by a reject. -/
def passes (policy : UploadPolicy) : Bool :=
  !(conn.amChoking && !decide (index ∈ conn.peerAllowedFast)) &&
    uploadAllowed policy true && decide (conn.queuedUploads < localClientReqq)

def handleRequest (torrent : Torrent) (stored : Stored) (conn : UploadConn)
    (index start length : UInt32) (turn : RequestTurn) : Option CoreError × UploadConn :=
  if conn.amChoking && !decide (index ∈ conn.peerAllowedFast) then
    (none, conn.sendMessage (.reject index start length))
  else if !uploadAllowed turn.policy true then
    (none, conn.sendMessage (.reject index start length))
  else if localClientReqq <= conn.queuedUploads then
    (none, conn.sendMessage (.reject index start length))
  else
    let reserved := { conn with queuedUploads := conn.queuedUploads + 1 }
    match readChunkInMemory torrent stored index.toNat start.toNat length.toNat turn.ram with
    | some (.ok data) =>
      (none, reserved.sendPiece (readBlock torrent stored index start length conn.amChoking data))
    | some (.error error) => (some error, reserved.releaseUpload)
    | none =>
      if turn.spawns then
        (none, { reserved with
          reads := reserved.reads ++ [⟨index, start, length, conn.amChoking⟩] })
      else
        match readChunk torrent stored index.toNat start.toNat length.toNat turn.failure with
        | .ok data =>
          (none, reserved.sendPiece (readBlock torrent stored index start length conn.amChoking data))
        | .error error => (some error, reserved.releaseUpload)

/-- The reader loop ends a connection whose handler failed. -/
def afterHandler (result : Option CoreError × UploadConn) : UploadConn :=
  match result.1 with
  | none => result.2
  | some _ => { result.2 with closed := true }

/-- The task for a disk read runs. -/
def finishRead (torrent : Torrent) (stored : Stored) (conn : UploadConn) (k : Nat)
    (failure : Option String) : UploadConn :=
  match conn.reads[k]? with
  | none => conn
  | some read =>
    let left := { conn with reads := conn.reads.eraseIdx k }
    match readChunk torrent stored read.index.toNat read.start.toNat read.length.toNat failure with
    | .ok data =>
      left.sendPiece (readBlock torrent stored read.index read.start read.length read.choked data)
    | .error _ => { left.releaseUpload with closed := true }

/-- The peer allows pieces to be asked of it while it chokes. -/
def onAllowedFast : UploadConn :=
  { conn with peerAllowedFast := insert index conn.peerAllowedFast }

def reconcileChoke (policy : UploadPolicy) (peerHasWantedPieces : Bool) : UploadConn :=
  let shouldChoke := !uploadAllowed policy peerHasWantedPieces
  if conn.amChoking = shouldChoke then conn
  else
    { conn with amChoking := shouldChoke }.sendMessage
      (if shouldChoke then .choke else .unchoke)

/-- The writer takes the next message; a block leaves the queue. -/
def write : UploadConn :=
  match conn.outbox[conn.taken]? with
  | none => conn
  | some (.piece _) => { conn.releaseUpload with taken := conn.taken + 1 }
  | some .choke | some .unchoke | some (.allowedFast _) | some (.reject _ _ _) =>
    { conn with taken := conn.taken + 1 }

end UploadConn

/-- A torrent, what its storage holds, and its connections. -/
structure Seeder where
  torrent : Torrent := {}
  stored : Stored := fun _ _ => 0
  conns : List UploadConn := []

inductive SeederEvent where
  | attach
  | request (conn : Nat) (index start length : UInt32) (turn : RequestTurn)
  | finishRead (conn k : Nat) (failure : Option String)
  | allowedFast (conn : Nat) (index : UInt32)
  | reconcileChoke (conn : Nat) (policy : UploadPolicy) (peerHasWantedPieces : Bool)
  | write (conn : Nat)
  | closeHandle (conn : Nat)
  | setInfo (info : Info) (complete : List Nat) (downloadAll : Bool)
  | storeBlock (req piece start : Nat) (data : List UInt8)
  | queuePieceHash (piece : Nat) (queued : Bool)
  | hashResult (piece : Nat) (valid : Bool)
  | refreshPiece (piece : Nat) (complete readable : Bool)
  /-- A piece is evicted or read back, and holds other bytes than before. -/
  | replace (piece : Nat) (bytes : Nat -> UInt8)

namespace Seeder

def onConn (seeder : Seeder) (conn : Nat) (change : UploadConn -> UploadConn) : Seeder :=
  { seeder with conns := seeder.conns.modify conn change }

def onTorrent (seeder : Seeder) (change : Torrent -> Torrent) : Seeder :=
  { seeder with torrent := change seeder.torrent }

/-- A block goes into the storage. -/
def store (stored : Stored) (piece start : Nat) (data : List UInt8) : Stored :=
  fun other position =>
    if other = piece /\ start <= position then
      (data[position - start]?).getD (stored other position)
    else stored other position

def step (seeder : Seeder) : SeederEvent -> Option Seeder
  | .attach => some { seeder with conns := seeder.conns ++ [{}] }
  | .request conn index start length turn =>
    some (seeder.onConn conn (fun c =>
      UploadConn.afterHandler (c.handleRequest seeder.torrent seeder.stored index start length turn)))
  | .finishRead conn k failure =>
    some (seeder.onConn conn (fun c => c.finishRead seeder.torrent seeder.stored k failure))
  | .allowedFast conn index => some (seeder.onConn conn (fun c => c.onAllowedFast index))
  | .reconcileChoke conn policy wanted =>
    some (seeder.onConn conn (fun c => c.reconcileChoke policy wanted))
  | .write conn => some (seeder.onConn conn UploadConn.write)
  | .closeHandle conn => some (seeder.onConn conn (fun c => { c with closed := true }))
  | .setInfo info complete downloadAll =>
    if seeder.torrent.info.isSome then none
    else
      some (seeder.onTorrent (fun torrent =>
        torrent.setInfo info (fun piece => complete.contains piece) downloadAll []))
  | .storeBlock req piece start data =>
    some
      { seeder with
        stored := store seeder.stored piece start data
        torrent := seeder.torrent.finishChunkWrite req true }
  | .queuePieceHash piece queued =>
    some (seeder.onTorrent (fun torrent => torrent.queuePieceHash piece queued))
  | .hashResult piece valid =>
    some (seeder.onTorrent (fun torrent => torrent.applyHashResult piece valid))
  | .refreshPiece piece complete readable =>
    some (seeder.onTorrent (fun torrent =>
      torrent.refreshPieceCompletion piece complete readable))
  | .replace piece bytes =>
    some { seeder with
      stored := fun other => if other = piece then bytes else seeder.stored other }

def machine : Machine Seeder SeederEvent where
  init := fun seeder => seeder = {}
  step := step

end Seeder
end TorrentPlayer.Core
