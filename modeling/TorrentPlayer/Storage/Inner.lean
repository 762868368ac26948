import Mathlib.Data.Finset.Basic
import TorrentPlayer.Library.FiniteMaps
import TorrentPlayer.Storage.Files

namespace TorrentPlayer.Storage

open Library

/-!
# The state of a torrent's storage

The storage keeps pieces in memory slots.  Beside the slots it keeps, in maps of
their own, which slots and which of their bytes are not yet in the files, how
many bytes all slots take, and in which order they were used.  Every operation
has to keep these together by hand.

This module has the state, the slots, and the two operations that make and drop
them for a download.
-/

/-- The bytes of one piece in memory. -/
structure Slot where
  len : Nat
  byte : Nat -> UInt8

namespace Slot

def zeros (len : Nat) : Slot where
  len := len
  byte := fun _ => 0

def write (slot : Slot) (range : ByteRange) (data : Nat -> UInt8) : Slot where
  len := slot.len
  byte := fun position => if range.Contains position then data position else slot.byte position

/-- Copy bytes to all positions that are not covered. -/
def fill (slot : Slot) (kept : Ranges) (data : Nat -> UInt8) : Slot where
  len := slot.len
  byte := fun position => if kept.Covers position then slot.byte position else data position

end Slot

/-- A map from pieces to flags, where a missing piece has the flag unset. -/
abbrev Flags : Type :=
  FiniteMap Nat Bool

def Flags.get (flags : Flags) (index : Nat) : Bool :=
  (flags.lookup index).getD false

structure StorageInner where
  chunkLength : Nat
  totalLength : Nat
  files : List FileDescriptor := []
  attached : Bool := false
  closed : Bool := false
  stream : Bool := false
  previewTemp : Bool := false
  cache : FiniteMap Nat Slot := ∅
  cacheDirty : Flags := ∅
  dirtySpans : FiniteMap Nat Ranges := ∅
  partialSlots : FiniteMap Nat Ranges := ∅
  savedPartial : Flags := ∅
  /-- From the least to the most recently used. -/
  cacheOrder : List Nat := []
  cacheBytes : Int := 0
  maxCacheBytes : Int := 64 * 1024 * 1024
  downloadMaxBytes : Int := 64 * 1024 * 1024
  streamMaxBytes : Int := 50 * 1024 * 1024
  completed : Flags := ∅
  /-- Pieces whose bytes are being written to the files without the lock. -/
  flushing : Finset Nat := ∅
  /-- Pieces that were chosen to leave the memory. -/
  evicting : Finset Nat := ∅
  /-- Flushing pieces that were written to meanwhile. -/
  flushRaced : Finset Nat := ∅
  flushNew : FiniteMap Nat Ranges := ∅

namespace StorageInner

variable (inner : StorageInner) (index : Nat)

/-- The length of a piece: the last one may be short. -/
def pieceLength : Nat :=
  min (inner.totalLength - index * inner.chunkLength) inner.chunkLength

/-- The position in the torrent of a position in a piece. -/
def address (position : Nat) : Nat :=
  index * inner.chunkLength + position

def touch : StorageInner :=
  { inner with cacheOrder := inner.cacheOrder.erase index ++ [index] }

/-- Drop a slot with everything that describes it. -/
def dropCache : StorageInner :=
  match inner.cache.lookup index with
  | none => inner
  | some data =>
    { inner with
      cache := inner.cache.erase index
      cacheBytes := inner.cacheBytes - data.len
      cacheDirty := inner.cacheDirty.erase index
      dirtySpans := inner.dirtySpans.erase index
      flushNew := inner.flushNew.erase index
      cacheOrder := inner.cacheOrder.erase index }

def makeSlot (expected : Nat) : StorageInner :=
  touch
    { inner with
      cache := inner.cache.insert index (Slot.zeros expected)
      cacheBytes := inner.cacheBytes + expected }
    index

/-- The oldest slot that is in the files already, other than a given one. -/
def cleanVictim (verifiedOnly : Bool) : Option Nat :=
  inner.cacheOrder.find? (fun piece =>
    piece != index && decide (piece ∉ inner.flushing) && !inner.cacheDirty.get piece &&
      (!verifiedOnly || inner.completed.get piece))

/-- The oldest slot that nobody is writing to the files. -/
def dirtyVictim : Option Nat :=
  inner.cacheOrder.find? (fun piece => piece != index && decide (piece ∉ inner.flushing))

inductive CacheSlot where
  | ready (created : Bool)
  /-- Only slots that are not in the files can go: write this one first. -/
  | flushFirst (victim : Nat)
  | failed (error : StorageError)
  deriving DecidableEq

/-- Drop slots until there is room.  A round drops a slot, so as many rounds as
there are slots are enough; a victim without a slot would be tried forever. -/
def makeRoom (index expected : Nat) : Nat -> StorageInner -> Option (CacheSlot × StorageInner)
  | 0, _ => none
  | rounds + 1, inner =>
    if inner.cacheBytes + expected <= inner.maxCacheBytes then
      some (.ready true, inner.makeSlot index expected)
    else
      match (inner.cleanVictim index true).or (inner.cleanVictim index false) with
      | some victim => makeRoom index expected rounds (inner.dropCache victim)
      | none =>
        match inner.dirtyVictim index with
        | some victim => some (.flushFirst victim, inner)
        | none => some (.failed (.other "cache full of unflushable data"), inner)

def ensureCacheSlot (expected : Nat) : Option (CacheSlot × StorageInner) :=
  match inner.cache.lookup index with
  | some existing =>
    if existing.len = expected then some (.ready false, inner.touch index)
    else makeRoom index expected (inner.cacheOrder.length + 1) (inner.dropCache index)
  | none => makeRoom index expected (inner.cacheOrder.length + 1) inner

end StorageInner

/-- What Direct Play keeps beside the slots. -/
structure StreamInner extends StorageInner where
  startupPieces : Flags := ∅
  startupSaved : Flags := ∅
  preloadPieces : Option Flags := none
  streamDemand : Flags := ∅
  /-- Pieces that were dropped before they were complete. -/
  streamLost : Flags := ∅
  /-- Pieces of which every byte has arrived. -/
  streamWhole : Flags := ∅
  streamRanges : FiniteMap Nat Ranges := ∅
  streamRevision : Nat := 0

namespace StreamInner

def dropCache (inner : StreamInner) (index : Nat) : StreamInner :=
  { inner with toStorageInner := inner.toStorageInner.dropCache index }

end StreamInner
end TorrentPlayer.Storage
