import Mathlib.Data.List.Basic

namespace TorrentPlayer.Wire

/-!
# Peer messages

The messages of the peer wire protocol, with the fields of each kind at the
widths the protocol gives them.
-/

/-- A byte string of the wire. -/
abbrev Bytes : Type :=
  List UInt8

structure Root where
  bytes : Bytes
  size : bytes.length = 32
  deriving DecidableEq

/-- The fields that the three hash messages share. -/
structure HashRange where
  piecesRoot : Root
  baseLayer : UInt32
  index : UInt32
  length : UInt32
  proofLayers : UInt32
  deriving DecidableEq

inductive Message where
  | keepalive
  | choke
  | unchoke
  | interested
  | notInterested
  | have (index : UInt32)
  | bitfield (bits : Bytes)
  | request (index start length : UInt32)
  | piece (index start : UInt32) (piece : Bytes)
  | cancel (index start length : UInt32)
  | port (port : UInt16)
  | suggest (index : UInt32)
  | haveAll
  | haveNone
  | reject (index start length : UInt32)
  | allowedFast (index : UInt32)
  | extended (id : UInt8) (payload : Bytes)
  | hashRequest (range : HashRange)
  | hashes (range : HashRange) (hashes : List Root)
  | hashReject (range : HashRange)
  deriving DecidableEq

/-- The bits of a bitfield payload, high bit first. -/
def unmarshalBitfield (bits : Bytes) : List Bool :=
  bits.flatMap (fun byte =>
    [7, 6, 5, 4, 3, 2, 1, 0].map (fun i => byte.toNat.testBit i))

end TorrentPlayer.Wire
