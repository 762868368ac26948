import TorrentPlayer.Library.BigEndian
import TorrentPlayer.Library.Utf8
import TorrentPlayer.Storage.Files

namespace TorrentPlayer.Storage

open Library

/-!
# Piece checkpoints

The file that records which pieces of a saved download are complete: a header, one record
for each file, and one bit for each piece.  The file operations of the writer and the reader
succeed here, so that the writer returns the bytes of the file and the reader is given them.
-/

def checkpointMagic : Nat := 0x57435031

def checkpointVersion : Nat := 1

def maxCheckpointPieces : Nat := 512 * 1024

def maxCheckpointFiles : Nat := 65536

def maxCheckpointPath : Nat := 4096

structure FileIdentity where
  external : Bool
  dev : UInt64
  ino : UInt64
  length : Int64
  modNano : Int64
  path : Text
deriving DecidableEq

structure PieceCheckpoint where
  infoHash : Vector UInt8 20
  pieceLength : Int64
  numPieces : Nat
  files : List FileIdentity
  complete : List Bool
deriving DecidableEq

/-- Set the bits of the complete pieces, from the piece `index` on. -/
def setBits : Nat -> List Bool -> List UInt8 -> List UInt8
  | _, [], out => out
  | index, ok :: complete, out =>
    setBits (index + 1) complete
      (if ok = true then out.modify (index / 8) (· ||| 1 <<< UInt8.ofNat (index % 8)) else out)

def PieceCheckpoint.bitfieldBytes (checkpoint : PieceCheckpoint) : List UInt8 :=
  setBits 0 checkpoint.complete (List.replicate ((checkpoint.numPieces + 7) / 8) 0)

def bitSet (bits : List UInt8) (index : Nat) : Bool :=
  bits.getD (index / 8) 0 &&& 1 <<< UInt8.ofNat (index % 8) != 0

def decodeBitfield (bits : List UInt8) (count : Nat) : List Bool :=
  (List.range count).map (bitSet bits)

/-- The fields of a record before the length of its path. -/
def FileIdentity.fixedBytes (file : FileIdentity) : List UInt8 :=
  [if file.external = true then 1 else 0] ++ (bigEndian 8 file.dev.toNat ++
    (bigEndian 8 file.ino.toNat ++ (bigEndian 8 file.length.toUInt64.toNat ++
      bigEndian 8 file.modNano.toUInt64.toNat)))

/-- A record: its fixed fields, and its path with the length before it. -/
def recordBytes (fixed path : List UInt8) : List UInt8 :=
  fixed ++ (bigEndian 4 path.length ++ path)

def FileIdentity.bytes (file : FileIdentity) : List UInt8 :=
  recordBytes file.fixedBytes file.path.bytes

/-- A file of checkpoint fields. -/
def layoutBytes (infoHash pieceLength : List UInt8) (numPieces numFiles : Nat)
    (records bits : List UInt8) : List UInt8 :=
  bigEndian 4 checkpointMagic ++ (bigEndian 4 checkpointVersion ++ (infoHash ++ (pieceLength ++
    (bigEndian 4 numPieces ++ (bigEndian 4 numFiles ++ (records ++ bits))))))

def writePieceCheckpoint (checkpoint : PieceCheckpoint) : Except StorageError (List UInt8) :=
  if maxCheckpointPieces < checkpoint.numPieces ∨ checkpoint.complete.length ≠ checkpoint.numPieces then
    .error (.other "invalid checkpoint")
  else if maxCheckpointFiles < checkpoint.files.length then
    .error (.other "invalid checkpoint file count")
  else
    .ok (layoutBytes checkpoint.infoHash.toList (bigEndian 8 checkpoint.pieceLength.toUInt64.toNat)
      checkpoint.numPieces checkpoint.files.length (checkpoint.files.flatMap FileIdentity.bytes)
      checkpoint.bitfieldBytes)

/-- `width` bytes at an offset. -/
def field (data : List UInt8) (offset width : Nat) : List UInt8 :=
  (data.drop offset).take width

def i64OfBytes (bytes : List UInt8) : Int64 :=
  (UInt64.ofNat (ofBigEndian bytes)).toInt64

/-- The identity in a record with these fixed fields and this path. -/
def identityOf (fixed path : List UInt8) : FileIdentity where
  external := decide (fixed.head? = some 1)
  dev := UInt64.ofNat (ofBigEndian (field fixed 1 8))
  ino := UInt64.ofNat (ofBigEndian (field fixed 9 8))
  length := i64OfBytes (field fixed 17 8)
  modNano := i64OfBytes (field fixed 25 8)
  path := Text.lossy path

/-- The loop over the records, with the bytes that are left after it. -/
def readFiles : Nat -> List UInt8 -> Except StorageError (List FileIdentity × List UInt8)
  | 0, data => .ok ([], data)
  | count + 1, data =>
    if data.length < 37 then
      .error (.other "truncated file identity")
    else if maxCheckpointPath < ofBigEndian (field data 33 4) ∨
        data.length < 37 + ofBigEndian (field data 33 4) then
      .error (.other "truncated file path")
    else
      match readFiles count (data.drop (37 + ofBigEndian (field data 33 4))) with
      | .error error => .error error
      | .ok (files, rest) =>
        .ok (identityOf (field data 0 33) (field data 37 (ofBigEndian (field data 33 4))) :: files, rest)

def readLayout (data : List UInt8) : Except StorageError (PieceCheckpoint × List UInt8) :=
  if data.length < 40 then
    .error (.other "checkpoint too short")
  else if ofBigEndian (field data 0 4) ≠ checkpointMagic then
    .error (.other "bad checkpoint magic")
  else if ofBigEndian (field data 4 4) ≠ checkpointVersion then
    .error (.other "unsupported checkpoint version")
  else if maxCheckpointPieces < ofBigEndian (field data 36 4) ∨ i64OfBytes (field data 28 8) <= 0 then
    .error (.other "invalid checkpoint header")
  else if data.length < 44 then
    .error (.other "truncated checkpoint files")
  else if maxCheckpointFiles < ofBigEndian (field data 40 4) then
    .error (.other "invalid checkpoint file count")
  else
    match readFiles (ofBigEndian (field data 40 4)) (data.drop 44) with
    | .error error => .error error
    | .ok (files, rest) =>
      if rest.length < (ofBigEndian (field data 36 4) + 7) / 8 then
        .error (.other "truncated bitfield")
      else
        .ok ({
          infoHash := Vector.ofFn (fun index => (field data 8 20).getD index 0)
          pieceLength := i64OfBytes (field data 28 8)
          numPieces := ofBigEndian (field data 36 4)
          files := files
          complete := decodeBitfield (rest.take ((ofBigEndian (field data 36 4) + 7) / 8))
            (ofBigEndian (field data 36 4)) },
          rest.drop ((ofBigEndian (field data 36 4) + 7) / 8))

/-- Bytes after the checkpoint are not looked at. -/
def readPieceCheckpoint (data : List UInt8) : Except StorageError PieceCheckpoint :=
  match readLayout data with
  | .error error => .error error
  | .ok (checkpoint, _) => .ok checkpoint

end TorrentPlayer.Storage
