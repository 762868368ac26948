import TorrentPlayer.Core.Torrent

namespace TorrentPlayer.Core

/-!
# What a reader may read

A reader asks how many bytes from a position on are there.  The answer is found
block by block: a block counts when its piece is complete or, for a responsive
reader, when the block itself was received.

The answer is sound: whatever the received bits guarantee about the bytes of
their blocks holds for every byte of the answer.
-/

namespace Torrent

variable (torrent : Torrent) (info : Info)

/-- The length of the block at a position of a piece, cut at the end of the
piece.  `piece` is the number that the code uses, which has 32 bits. -/
def chunkLen (piece chunkStart : Nat) : Nat :=
  min (min ((piece + 1) * info.pieceLength) info.totalLength -
    (piece * info.pieceLength + chunkStart)) blockSize

/-- Whether the block may be read. -/
def chunkReadable (responsive : Bool) (piece chunkStart : Nat) : Bool :=
  torrent.pieceComplete piece || (responsive && torrent.dirtyChunks.contains
    (reqIndexFromPieceAndOffset piece (chunkStart % u32Range) info.pieceLength))

/-- The rest of the block at a position: how many of its bytes may be read. -/
def chunkRest (responsive : Bool) (off : Nat) : Nat :=
  let piece := off / info.pieceLength % u32Range
  let inPiece := off % info.pieceLength
  let chunkStart := inPiece / blockSize * blockSize
  if off < info.totalLength && torrent.chunkReadable info responsive piece chunkStart then
    chunkLen info piece chunkStart - (inPiece - chunkStart)
  else 0

/-- The loop of `have`, with what is left to find and what was found.  It ends
at a block without readable bytes. -/
def haveLoop (torrent : Torrent) (info : Info) (responsive : Bool) (off : Nat) (max ret : Int) :
    Int × Int :=
  if 0 < max then
    if 0 < torrent.chunkRest info responsive off then
      torrent.haveLoop info responsive (off + torrent.chunkRest info responsive off)
        (max - torrent.chunkRest info responsive off) (ret + torrent.chunkRest info responsive off)
    else (max, ret)
  else (max, ret)
termination_by max.toNat
decreasing_by omega

/-- How many of `len` bytes from `offset` on a reader may read. -/
def readerHave (offset len : Int) (responsive : Bool) : Int :=
  match torrent.info with
  | none => 0
  | some info =>
    let found :=
      if offset < 0 then (len, 0) else torrent.haveLoop info responsive offset.toNat len 0
    if found.1 < 0 then found.2 + found.1 else found.2

/-! ## Soundness -/

/-- A byte that may be read: its piece is complete, or it is known to be there. -/
def Available (there : Nat -> Nat -> Prop) (position : Nat) : Prop :=
  position < info.totalLength /\ (torrent.pieceComplete (position / info.pieceLength) = true ∨
      there (position / info.pieceLength) (position % info.pieceLength))

/-- The bytes of a block whose received bit is set are there. -/
def Backed (there : Nat -> Nat -> Prop) : Prop :=
  ∀ req, torrent.dirtyChunks.contains req = true -> ∀ byte, (torrent.blockCoord req).offset <= byte ->
    byte < (torrent.blockCoord req).offset + (torrent.blockCoord req).length ->
    there (torrent.blockCoord req).piece byte

section
variable {torrent : Torrent} {info : Info} {there : Nat -> Nat -> Prop}

theorem piece_mod_u32 (addressable : info.Addressable) {off : Nat} (inside : off < info.totalLength) :
    off / info.pieceLength % u32Range = off / info.pieceLength := by
  apply Nat.mod_eq_of_lt
  have chunks := Nat.one_le_of_lt (addressable.chunk_lt off)
  rw [addressable.chunksPerPiece_eq] at chunks
  calc off / info.pieceLength < (info.totalLength + info.pieceLength - 1) / info.pieceLength :=
        addressable.piece_lt inside
    _ <= (info.totalLength + info.pieceLength - 1) / info.pieceLength *
          ((info.pieceLength + blockSize - 1) / blockSize) := Nat.le_mul_of_pos_right _ chunks
    _ <= u32Range := addressable.blocksFit

variable (known : torrent.info = some info)
include known

variable (addressable : info.Addressable)
include addressable

variable (backed : torrent.Backed there)
include backed

variable (responsive : Bool)

theorem chunkRest_available {off k : Nat} (below : k < torrent.chunkRest info responsive off) :
    torrent.Available info there (off + k) := by
  rw [chunkRest] at below
  split at below
  next both =>
    rw [Bool.and_eq_true, decide_eq_true_eq] at both
    rcases both with ⟨inside, readable⟩
    rw [piece_mod_u32 addressable inside] at below readable
    have pieceFits := addressable.pieceFits
    have small := Nat.mod_lt off addressable.positive
    have start := Nat.div_mul_le_self (off % info.pieceLength) blockSize
    have place := Nat.div_add_mod off info.pieceLength
    have scaled : (off / info.pieceLength + 1) * info.pieceLength =
        info.pieceLength * (off / info.pieceLength) + info.pieceLength := by
      rw [Nat.add_mul, Nat.one_mul, Nat.mul_comm]
    rw [chunkLen, Nat.mul_comm (off / info.pieceLength)] at below
    have within : off % info.pieceLength + k < info.pieceLength := by omega
    have piece : (off + k) / info.pieceLength = off / info.pieceLength := by
      rw [<- place, Nat.add_assoc, Nat.mul_add_div addressable.positive, Nat.div_eq_of_lt within]
      simp [Nat.mul_add_div addressable.positive, Nat.div_eq_of_lt small]
    have byte : (off + k) % info.pieceLength = off % info.pieceLength + k := by
      rw [Nat.add_mod_eq_add_mod_right k (Nat.mod_mod off info.pieceLength).symm, Nat.mod_eq_of_lt within]
    refine ⟨by omega, ?_⟩
    rw [piece, byte]
    rw [chunkReadable, Bool.or_eq_true, Bool.and_eq_true] at readable
    refine readable.imp_right fun received => ?_
    have unwrapped : off % info.pieceLength / blockSize * blockSize % u32Range =
        (blockOf info off).offset := by
      apply Nat.mod_eq_of_lt
      omega
    rw [unwrapped] at received
    have coord : torrent.blockCoord (reqIndexFromPieceAndOffset (off / info.pieceLength)
        (blockOf info off).offset info.pieceLength) = blockOf info off := by
      rw [blockCoord, pieceLength, totalLength, known]
      exact addressable.blockCoord_reqIndex inside
    have found := backed _ received.2 (off % info.pieceLength + k)
    rw [coord] at found
    apply found
    · show off % info.pieceLength / blockSize * blockSize <= _
      omega
    · simp only [blockOf, scaled, Nat.mul_comm (off / info.pieceLength)]
      omega
  · omega

theorem haveLoop_available (off : Nat) (max ret : Int) : (torrent.haveLoop info responsive off max ret).1 +
      (torrent.haveLoop info responsive off max ret).2 = max + ret /\
    ∀ k : Nat, k < (torrent.haveLoop info responsive off max ret).2 - ret ->
      torrent.Available info there (off + k) := by
  fun_induction torrent.haveLoop info responsive off max ret with
  | case1 off max ret more some ih =>
    refine ⟨by omega, fun k below => ?_⟩
    by_cases here : k < torrent.chunkRest info responsive off
    · exact chunkRest_available known addressable backed responsive here
    have later := ih.2 (k - torrent.chunkRest info responsive off) (by omega)
    have same : off + torrent.chunkRest info responsive off +
        (k - torrent.chunkRest info responsive off) = off + k := by omega
    rw [same] at later
    exact later
  | case2 off max ret more none | case3 off max ret done => exact ⟨rfl, fun k below => by omega⟩

theorem readerHave_available (offset len : Int) (position : Nat) (fromOffset : offset <= position)
    (below : position < offset + torrent.readerHave offset len responsive) :
    torrent.Available info there position := by
  simp only [readerHave, known] at below
  by_cases negative : offset < 0
  · rw [if_pos negative] at below
    split at below <;> omega
  · rw [if_neg negative] at below
    have loop := haveLoop_available known addressable backed responsive offset.toNat len 0
    have there := loop.2 (position - offset.toNat) (by split at below <;> omega)
    have same : offset.toNat + (position - offset.toNat) = position := by omega
    rw [same] at there
    exact there

end
end Torrent
end TorrentPlayer.Core
