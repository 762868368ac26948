import Mathlib.Data.Nat.Basic
import Mathlib.Tactic.Ring

namespace TorrentPlayer.Core

/-!
# Block geometry

A torrent is one byte string cut into pieces, and every piece is cut into
blocks of 16 KiB.  A block has a torrent-wide number, its request index, and a
position inside its piece.  The code computes with 32-bit numbers; where its
arithmetic can wrap, the definitions below wrap too.
-/

def blockSize : Nat :=
  16384

/-- The range of the 32-bit numbers. -/
def u32Range : Nat :=
  2 ^ 32

structure Info where
  pieceLength : Nat
  totalLength : Nat
  deriving DecidableEq

namespace Info

def numPieces (info : Info) : Nat :=
  if info.pieceLength = 0 ∨ info.totalLength = 0 then 0
  else (info.totalLength + info.pieceLength - 1) / info.pieceLength % u32Range

/-- The length of one piece; the last one may be shorter. -/
def pieceLen (info : Info) (piece : Nat) : Nat :=
  min (info.totalLength - piece * info.pieceLength) info.pieceLength

end Info

structure BlockCoord where
  piece : Nat
  offset : Nat
  length : Nat

def chunksPerPiece (pieceLength : Nat) : Nat :=
  max ((pieceLength + blockSize - 1) / blockSize) 1 % u32Range

/-- The length of a piece as the block arithmetic computes it. -/
def pieceSpan (piece pieceLength totalLength : Nat) : Nat :=
  (min ((piece + 1) * pieceLength) totalLength - piece * pieceLength) % u32Range

def blockCoordFromReqIndex (req pieceLength totalLength : Nat) : BlockCoord :=
  let piece := req / chunksPerPiece pieceLength
  let offset := req % chunksPerPiece pieceLength * blockSize % u32Range
  let span := pieceSpan piece pieceLength totalLength
  { piece := piece
    offset := offset
    length := if span <= offset then 0 else min blockSize (span - offset) }

def reqIndexFromPieceAndOffset (piece offset pieceLength : Nat) : Nat :=
  (piece * chunksPerPiece pieceLength + offset / blockSize) % u32Range

/-- The blocks of one piece: the first one, and the one after the last. -/
def pieceReqIndexRange (piece pieceLength totalLength : Nat) : Nat × Nat :=
  let start := piece * chunksPerPiece pieceLength % u32Range
  let span := pieceSpan piece pieceLength totalLength
  (start, (start + (span + blockSize - 1) / blockSize) % u32Range)

def blockCount (info : Info) : Nat :=
  min ((pieceReqIndexRange 0 info.pieceLength info.pieceLength).2 * info.numPieces) (u32Range - 1)

/-! ## Torrents whose blocks have distinct numbers -/

/-- No number of this torrent's geometry leaves the 32-bit range: neither an
offset inside a piece nor the number of a block. -/
structure Info.Addressable (info : Info) : Prop where
  positive : 0 < info.pieceLength
  pieceFits : info.pieceLength < u32Range
  blocksFit : (info.totalLength + info.pieceLength - 1) / info.pieceLength *
    ((info.pieceLength + blockSize - 1) / blockSize) <= u32Range

/-- The block that contains a byte of the torrent. -/
def blockOf (info : Info) (position : Nat) : BlockCoord :=
  let piece := position / info.pieceLength
  let offset := position % info.pieceLength / blockSize * blockSize
  { piece := piece
    offset := offset
    length := min blockSize
      (min ((piece + 1) * info.pieceLength) info.totalLength - piece * info.pieceLength - offset) }

namespace Info.Addressable

variable {info : Info}

section
variable (addressable : info.Addressable)
include addressable

theorem chunksPerPiece_eq :
    chunksPerPiece info.pieceLength = (info.pieceLength + blockSize - 1) / blockSize := by
  have positive := addressable.positive
  have fits := addressable.pieceFits
  rw [u32Range] at fits
  rw [chunksPerPiece, u32Range, blockSize]
  omega

variable {position : Nat}

theorem piece_lt (inside : position < info.totalLength) :
    position / info.pieceLength < (info.totalLength + info.pieceLength - 1) / info.pieceLength := by
  have positive := addressable.positive
  rw [Nat.lt_div_iff_mul_lt positive]
  have below := Nat.div_mul_le_self position info.pieceLength
  omega

theorem chunk_lt (position : Nat) :
    position % info.pieceLength / blockSize < chunksPerPiece info.pieceLength := by
  have below := Nat.mod_lt position addressable.positive
  rw [addressable.chunksPerPiece_eq, blockSize]
  omega

theorem reqIndex_eq (inside : position < info.totalLength) :
    reqIndexFromPieceAndOffset (position / info.pieceLength) (blockOf info position).offset info.pieceLength =
    position / info.pieceLength * chunksPerPiece info.pieceLength +
      position % info.pieceLength / blockSize := by
  have chunk := addressable.chunk_lt position
  have fits : position / info.pieceLength * chunksPerPiece info.pieceLength +
      position % info.pieceLength / blockSize < u32Range := by
    calc _ < (position / info.pieceLength + 1) * chunksPerPiece info.pieceLength := by
          rw [Nat.add_mul, Nat.one_mul]
          exact Nat.add_lt_add_left chunk _
      _ <= (info.totalLength + info.pieceLength - 1) / info.pieceLength * chunksPerPiece info.pieceLength :=
          Nat.mul_le_mul_right _ (addressable.piece_lt inside)
      _ <= u32Range := by
          rw [addressable.chunksPerPiece_eq]
          exact addressable.blocksFit
  have whole : (blockOf info position).offset / blockSize = position % info.pieceLength / blockSize :=
    Nat.mul_div_cancel _ (by decide)
  rw [reqIndexFromPieceAndOffset, whole, Nat.mod_eq_of_lt fits]

/-- The number of the block that contains a byte leads back to the block. -/
theorem blockCoord_reqIndex (inside : position < info.totalLength) : blockCoordFromReqIndex
      (reqIndexFromPieceAndOffset (position / info.pieceLength) (blockOf info position).offset
        info.pieceLength) info.pieceLength info.totalLength = blockOf info position := by
  have chunk := addressable.chunk_lt position
  have pieceFits := addressable.pieceFits
  have below := Nat.mod_lt position addressable.positive
  have offset : position % info.pieceLength / blockSize * blockSize % u32Range =
      position % info.pieceLength / blockSize * blockSize := by
    apply Nat.mod_eq_of_lt
    have small := Nat.div_mul_le_self (position % info.pieceLength) blockSize
    omega
  have span : pieceSpan (position / info.pieceLength) info.pieceLength info.totalLength =
      min ((position / info.pieceLength + 1) * info.pieceLength) info.totalLength -
        position / info.pieceLength * info.pieceLength := by
    apply Nat.mod_eq_of_lt
    rw [Nat.add_mul]
    omega
  have quotient : (position / info.pieceLength * chunksPerPiece info.pieceLength +
      position % info.pieceLength / blockSize) / chunksPerPiece info.pieceLength =
        position / info.pieceLength := by
    rw [Nat.mul_comm, Nat.mul_add_div (Nat.zero_lt_of_lt chunk), Nat.div_eq_of_lt chunk, Nat.add_zero]
  have remainder : (position / info.pieceLength * chunksPerPiece info.pieceLength +
      position % info.pieceLength / blockSize) % chunksPerPiece info.pieceLength =
      position % info.pieceLength / blockSize := by
    rw [Nat.mul_comm, Nat.mul_add_mod, Nat.mod_eq_of_lt chunk]
  rw [addressable.reqIndex_eq inside, blockCoordFromReqIndex]
  simp only [quotient, remainder, offset, span]
  congr 1
  split <;> omega

end
end Info.Addressable

/-- The number after the last block fits the 32-bit range as well. -/
structure Info.Countable (info : Info) : Prop extends info.Addressable where
  blocksBelow : (info.totalLength + info.pieceLength - 1) / info.pieceLength *
    ((info.pieceLength + blockSize - 1) / blockSize) < u32Range

variable {piece : Nat}

namespace Info.Countable

variable {info : Info}

theorem piece_lt_count (inside : piece < info.numPieces) :
    piece < (info.totalLength + info.pieceLength - 1) / info.pieceLength := by
  rw [numPieces] at inside
  split at inside
  · cases inside
  · exact inside.trans_le (Nat.mod_le _ _)

theorem pieceSpan_eq (countable : info.Countable) (inside : piece < info.numPieces) :
    pieceSpan piece info.pieceLength info.totalLength = info.pieceLen piece /\ 0 < info.pieceLen piece := by
  have positive := countable.positive
  have fits := countable.pieceFits
  have below := (Nat.lt_div_iff_mul_lt positive).mp (piece_lt_count inside)
  have small : min ((piece + 1) * info.pieceLength) info.totalLength - piece * info.pieceLength <
      u32Range := by
    rw [Nat.add_mul]
    omega
  rw [pieceSpan, pieceLen, Nat.mod_eq_of_lt small, Nat.add_mul]
  omega

theorem pieceReqIndexRange_spec (countable : info.Countable) (inside : piece < info.numPieces) :
    let range := pieceReqIndexRange piece info.pieceLength info.totalLength
    range.1 < range.2 /\ ∀ req, range.1 <= req -> req < range.2 ->
      req / chunksPerPiece info.pieceLength = piece := by
  intro range
  have chunks := countable.chunksPerPiece_eq
  rcases countable.pieceSpan_eq inside with ⟨span, some_byte⟩
  have most : info.pieceLen piece <= info.pieceLength := Nat.min_le_right _ _
  have whole : (info.pieceLen piece + blockSize - 1) / blockSize <= chunksPerPiece info.pieceLength := by
    rw [chunks]
    exact Nat.div_le_div_right (by omega)
  have one : 0 < (info.pieceLen piece + blockSize - 1) / blockSize :=
    Nat.div_pos (by omega) (by decide)
  have fits : piece * chunksPerPiece info.pieceLength + chunksPerPiece info.pieceLength < u32Range := by
    calc _ = (piece + 1) * chunksPerPiece info.pieceLength := by rw [Nat.add_mul, Nat.one_mul]
      _ <= (info.totalLength + info.pieceLength - 1) / info.pieceLength * chunksPerPiece info.pieceLength :=
          Nat.mul_le_mul_right _ (piece_lt_count inside)
      _ < u32Range := by
          rw [chunks]
          exact countable.blocksBelow
  have first : range.1 = piece * chunksPerPiece info.pieceLength := Nat.mod_eq_of_lt (by omega)
  have last : range.2 =
      piece * chunksPerPiece info.pieceLength + (info.pieceLen piece + blockSize - 1) / blockSize := by
    show (_ % _ + _) % _ = _
    rw [span, Nat.mod_eq_of_lt (a := piece * _) (by omega), Nat.mod_eq_of_lt (by omega)]
  refine ⟨by omega, fun req low high => ?_⟩
  rw [Nat.div_eq_iff (by omega)]
  constructor
  · omega
  · omega

end Info.Countable

theorem Info.Addressable.piece_of_reqIndex
    {info : Info} (addressable : info.Addressable) {offset : Nat} (inside : offset < info.pieceLen piece) :
    reqIndexFromPieceAndOffset piece offset info.pieceLength / chunksPerPiece info.pieceLength = piece := by
  have positive := addressable.positive
  rw [Info.pieceLen] at inside
  have quotient : (piece * info.pieceLength + offset) / info.pieceLength = piece := by
    rw [Nat.mul_comm, Nat.mul_add_div positive, Nat.div_eq_of_lt (by omega), Nat.add_zero]
  have remainder : (piece * info.pieceLength + offset) % info.pieceLength = offset := by
    rw [Nat.mul_comm, Nat.mul_add_mod, Nat.mod_eq_of_lt (by omega)]
  have inTorrent : piece * info.pieceLength + offset < info.totalLength := by omega
  have index := addressable.reqIndex_eq inTorrent
  have chunk := addressable.chunk_lt (piece * info.pieceLength + offset)
  have rounded : reqIndexFromPieceAndOffset piece
      (blockOf info (piece * info.pieceLength + offset)).offset info.pieceLength =
      reqIndexFromPieceAndOffset piece offset info.pieceLength := by
    rw [reqIndexFromPieceAndOffset, reqIndexFromPieceAndOffset, blockOf]
    rw [remainder, Nat.mul_div_cancel _ (by decide)]
  rw [quotient, remainder, rounded] at index
  rw [remainder] at chunk
  rw [index, Nat.mul_comm, Nat.mul_add_div (Nat.zero_lt_of_lt chunk), Nat.div_eq_of_lt chunk, Nat.add_zero]

end TorrentPlayer.Core
