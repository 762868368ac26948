import TorrentPlayer.Library.Eviction
import TorrentPlayer.Storage.Views

namespace TorrentPlayer.Storage

open Library StorageInner StreamInner Slot Option Flags

/-!
# Slots are made by dropping others

A piece needs a slot of its length.  Where the memory is full, others go: for a
saved download those that are in the files already, for Direct Play those that
are not waiting for their check.

The loops choose a victim from the order of use and drop its slot.  A piece that
is in the order without a slot is chosen again and again.  The order and the
slots are kept in step by hand, and a read that ends after its slot was dropped
puts its piece back into the order.
-/

/-! ## Slots of a saved download -/

variable {inner : StorageInner} {index other expected : Nat}

namespace StorageInner

/-- What `ensureCacheSlot` does in a number of rounds of its loop. -/
def ensureCacheSlotWithin (rounds : Nat) (inner : StorageInner) (index expected : Nat) :
    Option (CacheSlot × StorageInner) :=
  match inner.cache.lookup index with
  | some existing =>
    if existing.len = expected then some (.ready false, inner.touch index)
    else makeRoom index expected rounds (inner.dropCache index)
  | none => makeRoom index expected rounds inner

/-- The piece has a slot of the length that is asked for. -/
def Fits (inner : StorageInner) (index expected : Nat) : Prop :=
  (inner.cache.lookup index).map len = some expected

instance (inner : StorageInner) (index expected : Nat) : Decidable (inner.Fits index expected) :=
  inferInstanceAs (Decidable (_ = _))

/-- The bytes that a piece takes. -/
def slotBytes (inner : StorageInner) (index : Nat) : Nat :=
  ((inner.cache.lookup index).map len).getD 0

theorem dropCache_of_none (absent : inner.cache.lookup index = none) : inner.dropCache index = inner := by
  rw [dropCache, absent]

section
variable (inner : StorageInner)

theorem lookup_dropCache (index other : Nat) : (inner.dropCache index).cache.lookup other =
    if index = other then none else inner.cache.lookup other := by
  unfold dropCache
  split
  next absent =>
    split
    next here => rw [<- here, absent]
    · rfl
  · exact FiniteMap.lookup_erase_eq _ _ _

theorem cacheBytes_dropCache (index : Nat) :
    (inner.dropCache index).cacheBytes = inner.cacheBytes - inner.slotBytes index := by
  unfold dropCache slotBytes
  cases inner.cache.lookup index with
  | none => exact (Int.sub_zero _).symm
  | some => rfl

theorem maxCacheBytes_dropCache (index : Nat) :
    (inner.dropCache index).maxCacheBytes = inner.maxCacheBytes := by
  unfold dropCache
  split <;> rfl

theorem spare_dropCache (index expected : Nat) :
    (inner.dropCache index).maxCacheBytes - ((inner.dropCache index).cacheBytes + expected) =
    inner.maxCacheBytes - (inner.cacheBytes + expected) + inner.slotBytes index := by
  rw [maxCacheBytes_dropCache, cacheBytes_dropCache]
  omega

end

theorem slotBytes_of_some {slot : Slot} (there : inner.cache.lookup index = some slot) :
    inner.slotBytes index = slot.len := by
  rw [slotBytes, there]
  rfl

section
variable (inner : StorageInner)

theorem spare_nonneg (expected : Nat) : (0 <= inner.maxCacheBytes - (inner.cacheBytes + expected)) =
    (inner.cacheBytes + expected <= inner.maxCacheBytes) :=
  propext (by omega)

theorem completed_dropCache (index : Nat) : (inner.dropCache index).completed = inner.completed := by
  unfold dropCache
  split <;> rfl

theorem flushing_dropCache (index : Nat) : (inner.dropCache index).flushing = inner.flushing := by
  unfold dropCache
  split <;> rfl

end

theorem nodup_dropCache (nodup : inner.cacheOrder.Nodup) (index : Nat) :
    (inner.dropCache index).cacheOrder.Nodup := by
  unfold dropCache
  split
  · exact nodup
  · exact nodup.erase _

theorem cacheOrder_dropCache {slot : Slot} (there : inner.cache.lookup index = some slot) :
    (inner.dropCache index).cacheOrder = inner.cacheOrder.erase index := by
  rw [dropCache, there]

theorem dirty_dropCache (inner : StorageInner) (index : Nat) (differs : index ≠ other) :
    (inner.dropCache index).cacheDirty.get other = inner.cacheDirty.get other := by
  unfold dropCache
  split
  · rfl
  · exact (get_erase _ _ _).trans (if_neg differs)

theorem dirty_dropCache_self (clean : inner.cacheDirty.get index = false) :
    (inner.dropCache index).cacheDirty.get index = false := by
  unfold dropCache
  split
  · exact clean
  · exact (get_erase _ _ _).trans (if_pos rfl)

/-- The slot of a piece may go: it is in the files and nobody writes it. -/
def clean (inner : StorageInner) (index : Nat) (verifiedOnly : Bool) (piece : Nat) : Bool :=
  piece != index && decide (piece ∉ inner.flushing) && !inner.cacheDirty.get piece &&
    (!verifiedOnly || inner.completed.get piece)

/-- The victims of the loop, in its order: verified pieces first. -/
def victims (inner : StorageInner) (index : Nat) : List Nat :=
  inPasses inner.cacheOrder (inner.clean index true) (inner.clean index false)

theorem clean_iff (inner : StorageInner) (index piece : Nat) : inner.clean index false piece = true <->
    piece ≠ index /\ piece ∉ inner.flushing /\ inner.cacheDirty.get piece = false := by
  simp [clean, and_assoc]

theorem clean_of_verified (piece : Nat) (verified : inner.clean index true piece = true) :
    inner.clean index false piece = true := by
  simp only [clean, Bool.and_eq_true, Bool.not_false, Bool.true_or, and_true] at verified ⊢
  exact verified.1

theorem clean_of_mem_victims {piece : Nat} (within : piece ∈ inner.victims index) :
    piece ≠ index /\ piece ∉ inner.flushing /\ inner.cacheDirty.get piece = false :=
  (inner.clean_iff index piece).mp (mem_inPasses clean_of_verified within)

/-- Dropping a slot changes what may go at most for its own piece. -/
theorem clean_dropCache (inner : StorageInner) (index dropped : Nat)
    (free : dropped = index \/ inner.cacheDirty.get dropped = false) (verifiedOnly : Bool) :
    (inner.dropCache dropped).clean index verifiedOnly = inner.clean index verifiedOnly := by
  funext piece
  by_cases own : piece = index
  · simp [clean, own]
  have same : (inner.dropCache dropped).cacheDirty.get piece = inner.cacheDirty.get piece := by
    by_cases here : dropped = piece
    · rcases free with itself | unwritten
      · exact absurd (here.symm.trans itself) own
      · rw [<- here, unwritten, dirty_dropCache_self unwritten]
    · exact inner.dirty_dropCache dropped here
  rw [clean, clean, same, completed_dropCache, flushing_dropCache]

end StorageInner

/-- The loop of a saved download. -/
def cleanSlots (index expected : Nat) : Evictor StorageInner Slot where
  victims inner := inner.victims index
  entry inner piece := inner.cache.lookup piece
  bytes := len
  spare inner := inner.maxCacheBytes - (inner.cacheBytes + expected)
  drop := dropCache

theorem cleanSlots_lawful (index expected : Nat) :
    (cleanSlots index expected).Lawful (fun inner => inner.cacheOrder.Nodup) where
  keeps victim nodup := nodup_dropCache nodup victim
  nodup nodup := nodup_inPasses nodup
  entry_drop := lookup_dropCache
  next {inner victim rest slot} nodup order there := by
    have free := clean_of_mem_victims (order ▸ List.mem_cons_self)
    constructor
    · show (inner.dropCache victim).victims index = rest
      rw [victims, inner.clean_dropCache index victim (Or.inr free.2.2),
        inner.clean_dropCache index victim (Or.inr free.2.2),
        cacheOrder_dropCache there]
      exact inPasses_erase_of_cons nodup order
    · rw [<- show inner.slotBytes victim = (cleanSlots index expected).bytes slot from
        slotBytes_of_some there]
      exact inner.spare_dropCache victim expected
  stays {inner victim rest} nodup order absent := by
    have same : inner.dropCache victim = inner := dropCache_of_none absent
    refine ⟨?_, congrArg _ same⟩
    show ((inner.dropCache victim).victims index).head? = _
    rw [same, show inner.victims index = _ from order]
    rfl

namespace StorageInner

theorem next_victim (inner : StorageInner) (index : Nat) :
    (inner.cleanVictim index true).or (inner.cleanVictim index false) = (inner.victims index).head? :=
  (head?_inPasses _ _ _).symm

/-- What follows the loop. -/
def afterRoom (index expected : Nat) : Bool × StorageInner -> CacheSlot × StorageInner
  | (true, inner) => (.ready true, inner.makeSlot index expected)
  | (false, inner) =>
    match inner.dirtyVictim index with
    | some victim => (.flushFirst victim, inner)
    | none => (.failed (.other "cache full of unflushable data"), inner)

theorem makeRoom_eq (index expected rounds : Nat) (inner : StorageInner) :
    makeRoom index expected rounds inner =
    ((cleanSlots index expected).evict rounds inner).map (afterRoom index expected) := by
  induction rounds generalizing inner with
  | zero => rfl
  | succ rounds ih =>
    have room : (0 <= (cleanSlots index expected).spare inner) = _ := inner.spare_nonneg expected
    have order : (cleanSlots index expected).victims inner = inner.victims index := rfl
    rw [makeRoom, Evictor.evict, order, next_victim]
    simp only [room]
    split
    · rfl
    cases inner.victims index with
    | nil =>
      dsimp only [map_some, afterRoom]
      cases inner.dirtyVictim index <;> rfl
    | cons => exact ih _

theorem ensureCacheSlotWithin_of_fits (fits : inner.Fits index expected) (rounds : Nat) :
    inner.ensureCacheSlotWithin rounds index expected = some (.ready false, inner.touch index) := by
  rcases map_eq_some_iff.mp fits with ⟨slot, there, same⟩
  rw [ensureCacheSlotWithin, there]
  exact if_pos same

theorem ensureCacheSlotWithin_of_not_fits (misfits : ¬ inner.Fits index expected) (rounds : Nat) :
    inner.ensureCacheSlotWithin rounds index expected =
    ((cleanSlots index expected).evict rounds (inner.dropCache index)).map (afterRoom index expected) := by
  rw [ensureCacheSlotWithin]
  cases there : inner.cache.lookup index with
  | none => rw [dropCache_of_none there, makeRoom_eq]
  | some =>
    refine (if_neg ?_).trans (makeRoom_eq _ _ _ _)
    intro same
    exact misfits (by rw [Fits, there, map_some, same])

/-- The piece itself is no victim, so its old slot may go before. -/
theorem victims_dropCache (nodup : inner.cacheOrder.Nodup) (index : Nat) :
    (inner.dropCache index).victims index = inner.victims index := by
  rw [victims, inner.clean_dropCache index index (Or.inl rfl), inner.clean_dropCache index index (Or.inl rfl)]
  cases there : inner.cache.lookup index with
  | none => rw [dropCache_of_none there, victims]
  | some =>
    rw [cacheOrder_dropCache there]
    exact inPasses_erase_of_notMem nodup (fun within => (clean_of_mem_victims within).1 rfl)

/-- What the clean slots free, up to the first that is missing. -/
def freedBytes (inner : StorageInner) (index : Nat) : Nat :=
  Evictor.freed len (fun piece => inner.cache.lookup piece) (inner.victims index)

/-- Every clean piece in the order has a slot, or the slots before the first that
is missing are enough. -/
def CanMakeRoom (inner : StorageInner) (index expected : Nat) : Prop :=
  (∀ piece ∈ inner.victims index, (inner.cache.lookup piece).isSome = true) ∨
    inner.cacheBytes + expected <= inner.maxCacheBytes + inner.slotBytes index + inner.freedBytes index

theorem canFinish_dropCache (nodup : inner.cacheOrder.Nodup) (index expected : Nat) :
    (cleanSlots index expected).CanFinish (inner.dropCache index) <-> inner.CanMakeRoom index expected :=
  Evictor.canFinish_of_dropped (victims_dropCache nodup index)
    (fun within => (clean_of_mem_victims within).1 rfl) (inner.lookup_dropCache index)
    (inner.spare_dropCache index expected)

/-- A slot is in the files, and nobody is writing it. -/
def Settled (inner : StorageInner) (piece : Nat) : Prop :=
  inner.cacheDirty.get piece = false /\ piece ∉ inner.flushing

instance (inner : StorageInner) (piece : Nat) : Decidable (inner.Settled piece) :=
  inferInstanceAs (Decidable (_ /\ _))

instance (inner : StorageInner) (index expected : Nat) : Decidable (inner.CanMakeRoom index expected) :=
  inferInstanceAs (Decidable (_ ∨ _))

/-- What a call is to do: it returns, a slot it makes has the right length and
fits into the memory, and every slot that is gone was settled. -/
def AllocatesSlot (inner : StorageInner) (index expected : Nat) : Prop :=
  Exists fun rounds : Nat => Exists fun answer : CacheSlot => Exists fun after : StorageInner =>
    inner.ensureCacheSlotWithin rounds index expected = some (answer, after) /\
      (answer = .ready true -> (after.cache.lookup index).map len = some expected /\
          after.cacheBytes <= after.maxCacheBytes) /\
      ∀ piece slot, inner.cache.lookup piece = some slot ->
        after.cache.lookup piece ≠ some slot -> inner.Settled piece

/-- When a call does that: the piece has the slot already, or no slot that must
stay is in its way and the loop can end. -/
def CanAllocate (inner : StorageInner) (index expected : Nat) : Prop :=
  inner.Fits index expected ∨ ((inner.cache.lookup index).isSome = true -> inner.Settled index) /\
      inner.CanMakeRoom index expected

instance (inner : StorageInner) (index expected : Nat) : Decidable (inner.CanAllocate index expected) :=
  inferInstanceAs (Decidable (_ ∨ _))

theorem lookup_makeSlot (inner : StorageInner) (index expected other : Nat) :
    (inner.makeSlot index expected).cache.lookup other =
    if index = other then some (zeros expected) else inner.cache.lookup other :=
  FiniteMap.lookup_insert_eq _ _ _ _

theorem lookup_afterRoom (index expected : Nat) (room : Bool) (mid : StorageInner) (piece : Nat) :
    (afterRoom index expected (room, mid)).2.cache.lookup piece =
    if room = true /\ index = piece then some (zeros expected) else mid.cache.lookup piece := by
  cases room with
  | true =>
    refine (mid.lookup_makeSlot index expected piece).trans ?_
    simp only [true_and]
  | false =>
    have unchanged : (afterRoom index expected (false, mid)).2 = mid := by
      rw [afterRoom]
      split <;> rfl
    rw [unchanged, if_neg (fun both => Bool.false_ne_true both.1)]

theorem ne_zeros_of_not_fits (misfits : ¬ inner.Fits index expected) :
    inner.cache.lookup index ≠ some (zeros expected) := by
  intro same
  exact misfits (by rw [Fits, same]; rfl)

theorem allocatesSlot_iff (nodup : inner.cacheOrder.Nodup) (index expected : Nat) :
    inner.AllocatesSlot index expected <-> inner.CanAllocate index expected := by
  by_cases fits : inner.Fits index expected
  · refine ⟨fun _ => Or.inl fits, fun _ => ?_⟩
    refine ⟨0, _, _, ensureCacheSlotWithin_of_fits fits 0, nofun, ?_⟩
    intro piece slot there gone
    exact absurd there gone
  · have lawful := cleanSlots_lawful index expected
    have valid := nodup_dropCache nodup index
    have order : (cleanSlots index expected).victims (inner.dropCache index) =
        inner.victims index := victims_dropCache nodup index
    rw [CanAllocate, or_iff_right fits, <- canFinish_dropCache nodup]
    refine Iff.trans ?_ (lawful.allocation_iff inner.Settled
      (fun result => (afterRoom index expected result).2) valid
      (inner.lookup_dropCache index) ?_ ?_ (lookup_afterRoom index expected)
      (ne_zeros_of_not_fits fits))
    · constructor
      · rintro ⟨rounds, answer, after, returned, _, settled⟩
        rw [ensureCacheSlotWithin_of_not_fits fits] at returned
        rcases map_eq_some_iff.mp returned with ⟨result, ends, same⟩
        refine ⟨rounds, result, ends, ?_⟩
        rw [same]
        exact settled
      · rintro ⟨rounds, ⟨room, mid⟩, ends, settled⟩
        refine ⟨rounds, (afterRoom index expected (room, mid)).1, _, ?_, ?_, settled⟩
        · rw [ensureCacheSlotWithin_of_not_fits fits, ends, map_some]
        · intro ready
          cases room with
          | false =>
            rw [afterRoom] at ready
            split at ready <;> cases ready
          | true =>
            have enough : 0 <= mid.maxCacheBytes - (mid.cacheBytes + expected) :=
              (lawful.of_evict valid ends).2.1 rfl
            refine ⟨?_, ?_⟩
            · rw [lookup_afterRoom, if_pos ⟨rfl, rfl⟩]
              rfl
            · show mid.cacheBytes + (expected : Int) <= mid.maxCacheBytes
              omega
    · rw [order]
      exact fun within => (clean_of_mem_victims within).1 rfl
    · rw [order]
      exact fun victim within => (clean_of_mem_victims within).2.symm

end StorageInner

/-! ## Slots of Direct Play -/

namespace StreamInner

/-- The slot of a piece may go: it is not waiting for its check. -/
def droppable (inner : StreamInner) (index piece : Nat) : Bool :=
  piece != index && (inner.completed.get piece || !inner.streamWhole.get piece)

/-- The first pass spares pieces that a player wants, or will want. -/
def spared (inner : StreamInner) (piece : Nat) : Bool :=
  let saved := inner.startupSaved.get piece
  let preload := inner.preloadPieces.any (fun pieces => (pieces.lookup piece).isSome)
  inner.streamDemand.get piece || preload && !saved ||
    inner.startupPieces.get piece && inner.completed.get piece && !saved

def streamVictim (inner : StreamInner) (index : Nat) : Option Nat :=
  (inner.cacheOrder.find? (fun piece => inner.droppable index piece && !inner.spared piece)).or
    (inner.cacheOrder.find? (inner.droppable index))

/-- A victim leaves.  It is complete only if it is in the startup file. -/
def evictStream (inner : StreamInner) (victim : Nat) : StreamInner :=
  let lost :=
    if inner.completed.get victim then inner
    else { inner with streamLost := inner.streamLost.insert victim true }
  let dropped :=
    { lost.dropCache victim with
      streamRanges := lost.streamRanges.erase victim
      streamWhole := lost.streamWhole.erase victim }
  if inner.startupSaved.get victim then dropped
  else { dropped with completed := dropped.completed.erase victim }

def makeStreamSlot (inner : StreamInner) (index expected : Nat) : StreamInner :=
  { inner with
    toStorageInner := inner.toStorageInner.makeSlot index expected
    streamRevision := inner.streamRevision + 1 }

/-- The loop of `ensureStreamSlot`, for some rounds.  The list has the pieces whose
completion has to be looked up again. -/
def makeStreamRoom (index expected : Nat) : Nat -> List Nat -> StreamInner ->
    Option (Except StorageError (Bool × List Nat) × StreamInner)
  | 0, _, _ => none
  | rounds + 1, refresh, inner =>
    if inner.cacheBytes + expected <= inner.maxCacheBytes then
      some (.ok (true, refresh), inner.makeStreamSlot index expected)
    else
      match inner.streamVictim index with
      | none => some (.error (.other "stream cache busy"), inner)
      | some victim =>
        let later := if inner.startupSaved.get victim then refresh else refresh ++ [victim]
        makeStreamRoom index expected rounds later (inner.evictStream victim)

def ensureStreamSlotWithin (rounds : Nat) (inner : StreamInner) (index expected : Nat) :
    Option (Except StorageError (Bool × List Nat) × StreamInner) :=
  match inner.cache.lookup index with
  | some existing =>
    if existing.len = expected then
      some (.ok (false, []), { inner with toStorageInner := inner.toStorageInner.touch index })
    else makeStreamRoom index expected rounds [] (inner.dropCache index)
  | none => makeStreamRoom index expected rounds [] inner

def streamVictims (inner : StreamInner) (index : Nat) : List Nat :=
  inPasses inner.cacheOrder (fun piece => inner.droppable index piece && !inner.spared piece)
    (inner.droppable index)

section
variable (inner : StreamInner)

theorem next_streamVictim (index : Nat) : inner.streamVictim index = (inner.streamVictims index).head? :=
  (head?_inPasses _ _ _).symm

theorem droppable_iff (index piece : Nat) : inner.droppable index piece = true <->
    piece ≠ index /\ ¬ (inner.streamWhole.get piece = true /\ inner.completed.get piece = false) := by
  rw [droppable]
  cases inner.completed.get piece <;> cases inner.streamWhole.get piece <;> simp

theorem droppable_of_mem_streamVictims {inner : StreamInner} {piece : Nat}
    (within : piece ∈ inner.streamVictims index) :
    piece ≠ index /\ ¬ (inner.streamWhole.get piece = true /\ inner.completed.get piece = false) := by
  refine (inner.droppable_iff index piece).mp (mem_inPasses ?_ within)
  intro victim early
  rw [Bool.and_eq_true] at early
  exact early.1

theorem evictStream_eq (victim : Nat) : inner.evictStream victim =
      { inner with
        toStorageInner :=
          { inner.toStorageInner.dropCache victim with
            completed :=
              if inner.startupSaved.get victim then inner.completed
              else inner.completed.erase victim }
        streamLost :=
          if inner.completed.get victim then inner.streamLost
          else inner.streamLost.insert victim true
        streamRanges := inner.streamRanges.erase victim
        streamWhole := inner.streamWhole.erase victim } := by
  have same := inner.toStorageInner.completed_dropCache victim
  unfold evictStream dropCache
  split <;> split <;> simp only [<- same]

theorem lookup_evictStream (victim other : Nat) : (inner.evictStream victim).cache.lookup other =
    if victim = other then none else inner.cache.lookup other := by
  rw [evictStream_eq]
  exact inner.toStorageInner.lookup_dropCache victim other

end

variable {inner : StreamInner}

theorem nodup_evictStream (nodup : inner.cacheOrder.Nodup) (victim : Nat) :
    (inner.evictStream victim).cacheOrder.Nodup := by
  rw [evictStream_eq]
  exact nodup_dropCache nodup victim

variable {victim : Nat}

theorem completed_evictStream (inner : StreamInner) (differs : victim ≠ other) :
    (inner.evictStream victim).completed.get other = inner.completed.get other := by
  rw [evictStream_eq]
  split
  · rfl
  · exact (get_erase _ _ _).trans (if_neg differs)

theorem droppable_evictStream (inner : StreamInner) (index : Nat) (differs : victim ≠ other) :
    (inner.evictStream victim).droppable index other = inner.droppable index other := by
  rw [droppable, droppable, completed_evictStream inner differs, evictStream_eq, get_erase, if_neg differs]

theorem spared_evictStream (inner : StreamInner) (differs : victim ≠ other) :
    (inner.evictStream victim).spared other = inner.spared other := by
  rw [spared, spared, completed_evictStream inner differs, evictStream_eq]

theorem droppable_evictStream_self (other : victim ≠ index) :
    (inner.evictStream victim).droppable index victim = true := by
  rw [evictStream_eq, droppable, get_erase, if_pos rfl, Bool.not_false, Bool.or_true, Bool.and_true]
  exact bne_iff_ne.mpr other

theorem spared_evictStream_self (free : inner.spared victim = false) :
    (inner.evictStream victim).spared victim = false := by
  rw [evictStream_eq]
  simp only [spared, Bool.or_eq_false_iff] at free ⊢
  refine ⟨free.1, ?_⟩
  split
  · exact free.2
  · rw [get_erase, if_pos rfl, Bool.and_false, Bool.false_and]

end StreamInner

/-- The loop of Direct Play. -/
def streamSlots (index expected : Nat) : Evictor StreamInner Slot where
  victims inner := inner.streamVictims index
  entry inner piece := inner.cache.lookup piece
  bytes := len
  spare inner := inner.maxCacheBytes - (inner.cacheBytes + expected)
  drop := evictStream

theorem spare_evictStream (index expected : Nat) (inner : StreamInner) (victim : Nat) :
    (streamSlots index expected).spare (inner.evictStream victim) =
    (streamSlots index expected).spare inner + inner.slotBytes victim := by
  rw [evictStream_eq]
  exact inner.toStorageInner.spare_dropCache victim expected

theorem streamSlots_lawful (index expected : Nat) :
    (streamSlots index expected).Lawful (fun inner => inner.cacheOrder.Nodup) where
  keeps victim nodup := nodup_evictStream nodup victim
  nodup nodup := nodup_inPasses nodup
  entry_drop := lookup_evictStream
  next {inner victim rest slot} nodup order there := by
    constructor
    · have left : (inner.evictStream victim).cacheOrder = inner.cacheOrder.erase victim := by
        rw [evictStream_eq]
        exact cacheOrder_dropCache there
      show (inner.evictStream victim).streamVictims index = rest
      rw [streamVictims, left]
      refine (inPasses_congr (fun other within => ?_)).trans (inPasses_erase_of_cons nodup order)
      have differs : victim ≠ other := by
        rintro rfl
        exact nodup.not_mem_erase within
      rw [inner.droppable_evictStream index differs, inner.spared_evictStream differs]
      exact ⟨rfl, rfl⟩
    · rw [<- show inner.slotBytes victim = (streamSlots index expected).bytes slot from
        slotBytes_of_some there]
      exact spare_evictStream index expected inner victim
  stays {inner victim rest} nodup order absent := by
    have free := droppable_of_mem_streamVictims (order ▸ List.mem_cons_self)
    constructor
    · have same : (inner.evictStream victim).cacheOrder = inner.cacheOrder := by
        rw [evictStream_eq]
        rw [dropCache_of_none absent]
      show ((inner.evictStream victim).streamVictims index).head? = some victim
      rw [streamVictims, same]
      have again : (inner.evictStream victim).droppable index victim = true :=
        droppable_evictStream_self free.1
      refine head?_inPasses_of_agree order (fun other differs => ?_) (fun early => ?_) again
      · rw [inner.droppable_evictStream index differs, inner.spared_evictStream differs]
        exact ⟨rfl, rfl⟩
      · rw [Bool.and_eq_true, Bool.not_eq_true_eq_eq_false] at early
        rw [again, spared_evictStream_self early.2]
        rfl
    · have empty : inner.slotBytes victim = 0 := by
        rw [slotBytes, show inner.cache.lookup victim = none from absent]
        rfl
      rw [show (streamSlots index expected).drop inner victim = inner.evictStream victim from rfl,
        spare_evictStream, empty]
      exact Int.add_zero _

namespace StreamInner

/-- What follows the loop.  The list of pieces to look up is left out. -/
def afterStreamRoom (index expected : Nat) : Bool × StreamInner -> Except StorageError Bool × StreamInner
  | (true, inner) => (.ok true, inner.makeStreamSlot index expected)
  | (false, inner) => (.error (.other "stream cache busy"), inner)

def withoutList (answer : Except StorageError (Bool × List Nat) × StreamInner) :
    Except StorageError Bool × StreamInner :=
  (answer.1.map Prod.fst, answer.2)

theorem makeStreamRoom_eq (index expected rounds : Nat) (refresh : List Nat) (inner : StreamInner) :
    (makeStreamRoom index expected rounds refresh inner).map withoutList =
    ((streamSlots index expected).evict rounds inner).map (afterStreamRoom index expected) := by
  induction rounds generalizing refresh inner with
  | zero => rfl
  | succ rounds ih =>
    have room : (0 <= (streamSlots index expected).spare inner) = _ := inner.spare_nonneg expected
    have order : (streamSlots index expected).victims inner = inner.streamVictims index := rfl
    rw [makeStreamRoom, Evictor.evict, order, next_streamVictim]
    simp only [room]
    split
    · rfl
    cases inner.streamVictims index with
    | nil => rfl
    | cons => exact ih _ _

variable {inner : StreamInner}

theorem ensureStreamSlotWithin_of_fits (fits : inner.Fits index expected)
    (rounds : Nat) : inner.ensureStreamSlotWithin rounds index expected = some (.ok (false, []),
        { inner with toStorageInner := inner.toStorageInner.touch index }) := by
  rcases map_eq_some_iff.mp fits with ⟨slot, there, same⟩
  rw [ensureStreamSlotWithin, there]
  exact if_pos same

theorem ensureStreamSlotWithin_of_not_fits (misfits : ¬ inner.Fits index expected) (rounds : Nat) :
    (inner.ensureStreamSlotWithin rounds index expected).map withoutList =
    ((streamSlots index expected).evict rounds (inner.dropCache index)).map
      (afterStreamRoom index expected) := by
  rw [ensureStreamSlotWithin]
  cases there : inner.cache.lookup index with
  | none =>
    have same : inner.dropCache index = inner := by rw [dropCache, dropCache_of_none there]
    rw [same]
    exact makeStreamRoom_eq _ _ _ _ _
  | some =>
    dsimp only
    rw [if_neg]
    · exact makeStreamRoom_eq _ _ _ _ _
    · intro same
      exact misfits (by rw [StorageInner.Fits, there, map_some, same])

theorem streamVictims_dropCache (nodup : inner.cacheOrder.Nodup)
    (index : Nat) : (inner.dropCache index).streamVictims index = inner.streamVictims index := by
  have droppable : (inner.dropCache index).droppable index = inner.droppable index := by
    funext piece
    show (_ && (Flags.get (inner.toStorageInner.dropCache index).completed piece || _)) = _
    rw [completed_dropCache]
    rfl
  have spared : (inner.dropCache index).spared = inner.spared := by
    funext piece
    show (_ || (_ && Flags.get (inner.toStorageInner.dropCache index).completed piece && _)) = _
    rw [completed_dropCache]
    rfl
  rw [streamVictims, droppable, spared]
  show inPasses (inner.toStorageInner.dropCache index).cacheOrder _ _ = _
  cases there : inner.cache.lookup index with
  | none => rw [dropCache_of_none there, streamVictims]
  | some =>
    rw [cacheOrder_dropCache there]
    exact inPasses_erase_of_notMem nodup (fun within => (droppable_of_mem_streamVictims within).1 rfl)

/-- What the slots that may go free, up to the first that is missing. -/
def freedBytes (inner : StreamInner) (index : Nat) : Nat :=
  Evictor.freed len (fun piece => inner.cache.lookup piece) (inner.streamVictims index)

def CanMakeRoom (inner : StreamInner) (index expected : Nat) : Prop :=
  (∀ piece ∈ inner.streamVictims index, (inner.cache.lookup piece).isSome = true) ∨
    inner.cacheBytes + expected <= inner.maxCacheBytes + inner.slotBytes index + inner.freedBytes index

theorem canFinish_dropCache (nodup : inner.cacheOrder.Nodup) (index expected : Nat) :
    (streamSlots index expected).CanFinish (inner.dropCache index) <-> inner.CanMakeRoom index expected :=
  Evictor.canFinish_of_dropped (streamVictims_dropCache nodup index)
    (fun within => (droppable_of_mem_streamVictims within).1 rfl)
    (inner.toStorageInner.lookup_dropCache index) (inner.toStorageInner.spare_dropCache index expected)

/-- Every byte of the piece has arrived, and it is waiting for its check. -/
def Unchecked (inner : StreamInner) (piece : Nat) : Prop :=
  inner.streamWhole.get piece = true /\ inner.completed.get piece = false

/-- What a call is to do: it returns, a slot it makes has the right length and
fits into the memory, and no slot that is gone was unchecked. -/
def AllocatesSlot (inner : StreamInner) (index expected : Nat) : Prop :=
  Exists fun rounds : Nat =>
    Exists fun answer : Except StorageError (Bool × List Nat) =>
      Exists fun after : StreamInner =>
        inner.ensureStreamSlotWithin rounds index expected = some (answer, after) /\
          (∀ refresh, answer = .ok (true, refresh) ->
            (after.cache.lookup index).map len = some expected /\ after.cacheBytes <= after.maxCacheBytes) /\
          ∀ piece slot, inner.cache.lookup piece = some slot ->
            after.cache.lookup piece ≠ some slot -> ¬ inner.Unchecked piece

def CanAllocate (inner : StreamInner) (index expected : Nat) : Prop :=
  inner.Fits index expected ∨ ((inner.cache.lookup index).isSome = true -> ¬ inner.Unchecked index) /\
      inner.CanMakeRoom index expected

instance (inner : StreamInner) (piece : Nat) : Decidable (inner.Unchecked piece) :=
  inferInstanceAs (Decidable (_ /\ _))

instance (inner : StreamInner) (index expected : Nat) : Decidable (inner.CanMakeRoom index expected) :=
  inferInstanceAs (Decidable (_ ∨ _))

instance (inner : StreamInner) (index expected : Nat) : Decidable (inner.CanAllocate index expected) :=
  inferInstanceAs (Decidable (_ ∨ _))

theorem lookup_afterStreamRoom (index expected : Nat) (room : Bool) (mid : StreamInner)
    (piece : Nat) : (afterStreamRoom index expected (room, mid)).2.cache.lookup piece =
    if room = true /\ index = piece then some (zeros expected) else mid.cache.lookup piece := by
  cases room with
  | true =>
    refine (mid.toStorageInner.lookup_makeSlot index expected piece).trans ?_
    simp only [true_and]
  | false => exact (if_neg (fun both => Bool.false_ne_true both.1)).symm

theorem allocatesSlot_iff (nodup : inner.cacheOrder.Nodup) (index expected : Nat) :
    inner.AllocatesSlot index expected <-> inner.CanAllocate index expected := by
  by_cases fits : inner.Fits index expected
  · refine ⟨fun _ => Or.inl fits, fun _ => ?_⟩
    refine ⟨0, _, _, ensureStreamSlotWithin_of_fits fits 0, nofun, ?_⟩
    intro piece slot there gone
    exact absurd there gone
  · have lawful := streamSlots_lawful index expected
    have valid : (inner.dropCache index).cacheOrder.Nodup :=
      nodup_dropCache nodup index
    have order : (streamSlots index expected).victims (inner.dropCache index) =
        inner.streamVictims index := streamVictims_dropCache nodup index
    rw [CanAllocate, or_iff_right fits, <- canFinish_dropCache nodup]
    refine Iff.trans ?_ (lawful.allocation_iff (fun piece => ¬ inner.Unchecked piece)
      (fun result => (afterStreamRoom index expected result).2) valid
      (inner.toStorageInner.lookup_dropCache index) ?_ ?_ (lookup_afterStreamRoom index expected)
      (ne_zeros_of_not_fits fits))
    · constructor
      · rintro ⟨rounds, answer, after, returned, _, checked⟩
        have short := ensureStreamSlotWithin_of_not_fits fits rounds
        rw [returned] at short
        rcases map_eq_some_iff.mp short.symm with ⟨result, ends, same⟩
        refine ⟨rounds, result, ends, ?_⟩
        rw [same]
        exact checked
      · rintro ⟨rounds, ⟨room, mid⟩, ends, checked⟩
        have short := ensureStreamSlotWithin_of_not_fits fits rounds
        rw [ends] at short
        rcases map_eq_some_iff.mp short with ⟨⟨answer, after⟩, returned, same⟩
        have state : after = (afterStreamRoom index expected (room, mid)).2 :=
          congrArg Prod.snd same
        rw [<- state] at checked
        refine ⟨rounds, answer, after, returned, ?_, checked⟩
        intro refresh ready
        rw [ready] at same
        cases room with
        | false => cases congrArg Prod.fst same
        | true =>
          have enough : 0 <= mid.maxCacheBytes - (mid.cacheBytes + expected) :=
            (lawful.of_evict valid ends).2.1 rfl
          rw [state]
          refine ⟨?_, ?_⟩
          · rw [lookup_afterStreamRoom, if_pos ⟨rfl, rfl⟩]
            rfl
          · show mid.cacheBytes + (expected : Int) <= mid.maxCacheBytes
            omega
    · rw [order]
      exact fun within => (droppable_of_mem_streamVictims within).1 rfl
    · rw [order]
      exact fun victim within => (droppable_of_mem_streamVictims within).2

end StreamInner

/-- Making a slot for a piece ends, with a slot that fits and without the loss of
one that had to stay, just where every piece in the order that may go has a slot
or those before the first without a slot are enough, and the old slot of the
piece, if it has another length, may go. -/
theorem allocates_slot_iff (download : StorageInner) (direct : StreamInner)
    (downloadOrder : download.cacheOrder.Nodup) (directOrder : direct.cacheOrder.Nodup)
    (index expected : Nat) :
    (download.AllocatesSlot index expected <-> download.CanAllocate index expected) ∧
      (direct.AllocatesSlot index expected <-> direct.CanAllocate index expected) :=
  ⟨allocatesSlot_iff downloadOrder index expected, allocatesSlot_iff directOrder index expected⟩

def fullSlots : StorageInner where
  chunkLength := 4
  totalLength := 12
  cache := ((∅ : FiniteMap Nat Slot).insert 0 (zeros 4)).insert 1 (zeros 4)
  cacheDirty := (∅ : Flags).insert 1 true
  cacheOrder := [0, 1]
  cacheBytes := 8
  maxCacheBytes := 8

def fullStream : StreamInner where
  toStorageInner := fullSlots
  streamWhole := (∅ : Flags).insert 1 true

theorem allocates_slot_iff_full : fullSlots.AllocatesSlot 2 4 ∧ fullStream.AllocatesSlot 2 4 :=
  have both := allocates_slot_iff fullSlots fullStream (by decide) (by decide) 2 4
  ⟨both.1.mpr (by decide +kernel), both.2.mpr (by decide +kernel)⟩

/-- Six pieces, of which four fit into the memory.  A read of piece 0 loads its
slot from the file.  Meanwhile four other pieces arrive, and the last of them
takes the place of piece 0. -/
def staleOrderLabels : List StoreLabel :=
  [.writeAt 0 0 { start := 0, stop := 1 }, .run 0,
    .readAt 1 0 { start := 0, stop := 2 }, .run 1, .run 1, .run 1,
    .writeAt 0 1 { start := 0, stop := 1 }, .run 0, .writeAt 0 2 { start := 0, stop := 1 }, .run 0,
    .writeAt 0 3 { start := 0, stop := 1 }, .run 0, .writeAt 0 4 { start := 0, stop := 1 }, .run 0,
    .run 1, .run 1]

def sixPieces : World :=
  World.attached (2 ^ 27) [(6 * 2 ^ 27, "a")] 0 ∅ (fun _ => 0)

theorem sixPieces_init : (World.machine (fun _ => 1)).init sixPieces :=
  ⟨_, _, _, _, _, rfl⟩

def staleOrder : World :=
  ((World.machine (fun _ => 1)).exec sixPieces staleOrderLabels).getD sixPieces

/-- The read puts piece 0 back into the order of use.  It is clean and has no
slot, so the next piece never gets one. -/
theorem stale_order_never_allocates :
    (World.machine (fun _ => 1)).RunsTo Machine.always staleOrderLabels staleOrder ∧
      ¬ staleOrder.inner.AllocatesSlot 5 (2 ^ 27) ∧
      forall rounds, staleOrder.inner.ensureCacheSlotWithin rounds 5 (2 ^ 27) = none := by
  have nodup : staleOrder.inner.cacheOrder.Nodup := by decide +kernel
  have misfits : ¬ staleOrder.inner.Fits 5 (2 ^ 27) := by decide +kernel
  have full : ¬ staleOrder.inner.CanMakeRoom 5 (2 ^ 27) := by decide +kernel
  refine ⟨.of_exec sixPieces_init (Machine.permits_always _ _ _) rfl, ?_, ?_⟩
  · rw [allocatesSlot_iff nodup]
    rintro (fits | ⟨_, room⟩)
    · exact misfits fits
    · exact full room
  · intro rounds
    rw [<- canFinish_dropCache nodup] at full
    rw [ensureCacheSlotWithin_of_not_fits misfits,
      (cleanSlots_lawful 5 (2 ^ 27)).evict_eq_none (nodup_dropCache nodup 5) full]
    rfl

end TorrentPlayer.Storage
