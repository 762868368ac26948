import TorrentPlayer.Hashes
import TorrentPlayer.Library.Chunks
import TorrentPlayer.Meta.Metainfo

namespace TorrentPlayer.Core

open Library Meta

/-!
# Assembling the info dictionary from peers

`wt-core/src/metadata/mod.rs`.  A magnet link names a torrent by its hashes
only; the info dictionary is fetched from peers in pieces of 16 KiB.  Pieces of
different peers go into one buffer, which is hashed when the last piece
arrives.

SHA-1 and SHA-256 are parameters: nothing here depends on what they compute.
-/

/-- The two digests of `info_hash_v1` and `info_hash_v2`. -/
structure Digests where
  infoHashV1 : List UInt8 -> InfoHash
  infoHashV2 : List UInt8 -> InfoHashV2

def metadataPieceSize : Nat := 16 * 1024
def maxMetadataSize : UInt32 := 16 * 1024 * 1024

inductive MetadataError where
  | sizeTooLarge (size : UInt32)
  | sizeZero
  | unexpectedPiece (piece : UInt32)
  | badPieceLen (piece : UInt32) (got want : Nat)
  | incorrectV1
  | incorrectV2
  | invalidV2Info
  | noExpectedHash
  | parse (error : Meta.Error)

structure VerifiedMetadata where
  info : Meta.Info
  infoBytes : List UInt8
  infoHashV1 : InfoHash
  infoHashV2 : InfoHashV2

inductive Serve where
  | data (bytes : List UInt8)
  | reject

def Serve.bytes : Serve -> List UInt8
  | .data bytes => bytes
  | .reject => []

structure MetadataExchange where
  expectedV1 : Option InfoHash
  expectedV2 : Option InfoHashV2
  bytes : List UInt8
  completed : List Bool
  verified : Option VerifiedMetadata

namespace MetadataExchange

/-! ## The operations -/

def new (expectedV1 : Option InfoHash) (expectedV2 : Option InfoHashV2) : MetadataExchange where
  expectedV1 := expectedV1
  expectedV2 := expectedV2
  bytes := []
  completed := []
  verified := none

variable (digests : Digests) (exchange : MetadataExchange) (piece : UInt32)

def hasInfo : Bool :=
  exchange.verified.isSome

def infoBytes : Option (List UInt8) :=
  if exchange.hasInfo = true then some exchange.bytes else none

def pieceCount : Nat :=
  chunkCount metadataPieceSize exchange.bytes.length

def pieceSize (total : Nat) (piece : UInt32) : Nat :=
  if total <= piece.toNat * metadataPieceSize then 0
  else min (total - piece.toNat * metadataPieceSize) metadataPieceSize

/-- Negotiate the total size.  The size that is already set is kept with its
pieces. -/
def setSize (size : UInt32) : Except MetadataError Bool × MetadataExchange :=
  if exchange.hasInfo = true then (.ok false, exchange)
  else if size = 0 then (.error .sizeZero, exchange)
  else if maxMetadataSize < size then (.error (.sizeTooLarge size), exchange)
  else if exchange.bytes.length = size.toNat then (.ok false, exchange)
  else
    (.ok true,
      { exchange with
        bytes := List.replicate size.toNat 0
        completed := List.replicate (chunkCount metadataPieceSize size.toNat) false })

def havePiece : Bool :=
  if exchange.hasInfo = true then
    decide (piece.toNat * metadataPieceSize < exchange.bytes.length)
  else exchange.completed.getD piece.toNat false

def haveAllPieces : Bool :=
  if exchange.hasInfo = true then true
  else !exchange.completed.isEmpty && exchange.completed.all id

def invalidate : MetadataExchange :=
  { exchange with
    completed := exchange.completed.map (fun _ => false)
    verified := none }

/-- Whether the hashes of the assembled bytes are the expected ones.  A magnet
link may carry a shortened v2 hash in its v1 slot. -/
def checkHashes (expectedV1 : Option InfoHash) (expectedV2 : Option InfoHashV2)
    (v1 : InfoHash) (v2 : InfoHashV2) (info : Meta.Info) : Except MetadataError Unit :=
  match expectedV1, expectedV2 with
  | some exp1, none =>
    if v1 = exp1 then .ok ()
    else if v2.toShort = exp1 then
      if info.hasV2 = true then .ok () else .error .invalidV2Info
    else .error .incorrectV1
  | some exp1, some exp2 =>
    if v1 ≠ exp1 then .error .incorrectV1
    else if v2 ≠ exp2 then .error .incorrectV2
    else .ok ()
  | none, some exp2 => if v2 ≠ exp2 then .error .incorrectV2 else .ok ()
  | none, none => .error .noExpectedHash

/-- Parse and hash the buffer; the expected hash that was not given is learned
from it. -/
def verifyBytes : Except MetadataError VerifiedMetadata × MetadataExchange :=
  match parseInfo exchange.bytes with
  | .error error => (.error (.parse error), exchange)
  | .ok info =>
    let v1 := digests.infoHashV1 exchange.bytes
    let v2 := digests.infoHashV2 exchange.bytes
    match checkHashes exchange.expectedV1 exchange.expectedV2 v1 v2 info with
    | .error error => (.error error, exchange)
    | .ok () =>
      (.ok { info := info, infoBytes := exchange.bytes, infoHashV1 := v1, infoHashV2 := v2 },
        { exchange with
          expectedV1 := some (exchange.expectedV1.getD v1)
          expectedV2 := some (exchange.expectedV2.getD v2) })

/-- Start from info bytes that are already known. -/
def fromInfoBytes (bytes : List UInt8) (expectedV1 : Option InfoHash)
    (expectedV2 : Option InfoHashV2) : Except MetadataError MetadataExchange :=
  match verifyBytes digests { new expectedV1 expectedV2 with bytes := bytes } with
  | (.error error, _) => .error error
  | (.ok verified, exchange) => .ok { exchange with verified := some verified }

/-- The end of `on_data`, once a piece is in the buffer. -/
def finishData : Except MetadataError (Option VerifiedMetadata) × MetadataExchange :=
  if exchange.haveAllPieces = false then (.ok none, exchange)
  else
    match exchange.verifyBytes digests with
    | (.ok verified, learned) =>
      (.ok (some verified), { learned with verified := some verified, completed := [] })
    | (.error error, kept) => (.error error, kept.invalidate)

/-- Put a piece into the buffer. -/
def savePiece (data : List UInt8) : MetadataExchange :=
  { exchange with
    bytes := overwrite (piece.toNat * metadataPieceSize) data exchange.bytes
    completed := exchange.completed.set piece.toNat true }

def onData (data : List UInt8) : Except MetadataError (Option VerifiedMetadata) × MetadataExchange :=
  if exchange.hasInfo = true then (.ok none, exchange)
  else if exchange.completed.length <= piece.toNat then
    (.error (.unexpectedPiece piece), exchange)
  else if data.length ≠ pieceSize exchange.bytes.length piece then
    (.error (.badPieceLen piece data.length (pieceSize exchange.bytes.length piece)), exchange)
  else (exchange.savePiece piece data).finishData digests

def serve : Serve :=
  if exchange.havePiece piece = false then .reject
  else
    .data ((exchange.bytes.drop (piece.toNat * metadataPieceSize)).take
      (pieceSize exchange.bytes.length piece))

inductive Call where
  | setSize (size : UInt32)
  | onData (piece : UInt32) (data : List UInt8)

def apply : Call -> MetadataExchange
  | .setSize size => (exchange.setSize size).2
  | .onData piece data => (exchange.onData digests piece data).2

def run (calls : List Call) : MetadataExchange :=
  calls.foldl (apply digests) exchange

def delivery (truth : List UInt8) (k : Nat) : Call :=
  .onData k.toUInt32 (chunk metadataPieceSize k truth)

end MetadataExchange
end TorrentPlayer.Core
