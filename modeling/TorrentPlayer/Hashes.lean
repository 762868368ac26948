import Mathlib.Init

namespace TorrentPlayer

/-!
# Hashes and peer ids

The fixed-size names of `wt-types`, which the wire, the metadata and the
discovery of peers have in common.
-/

abbrev InfoHash : Type :=
  Vector UInt8 20

abbrev InfoHashV2 : Type :=
  Vector UInt8 32

abbrev PeerId : Type :=
  Vector UInt8 20

/-- The first twenty bytes stand for the hash wherever a short key is needed. -/
def InfoHashV2.toShort (hash : InfoHashV2) : InfoHash :=
  Vector.ofFn (fun index : Fin 20 => hash[index.val])

def toHex (hash : InfoHash) : String :=
  String.ofList (hash.toList.flatMap (fun byte =>
    [Nat.digitChar (byte.toNat / 16), Nat.digitChar (byte.toNat % 16)]))

end TorrentPlayer
