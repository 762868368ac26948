import TorrentPlayer.Storage.Ranges

namespace TorrentPlayer.Storage

open List

/-!
# Received ranges as they arrive

The ends of an incoming range and of a question are signed.  The ranges that are kept are
never negative.
-/

structure SignedRange where
  start : Int
  stop : Int

def SignedRange.Gives (incoming : SignedRange) (position : Int) : Prop :=
  0 <= incoming.start /\ incoming.start <= position /\ position < incoming.stop

/-- What `merge_received_range` does, with the checks of its argument. -/
def mergeSigned (ranges : List ByteRange) (incoming : SignedRange) : List ByteRange :=
  if incoming.start < 0 ∨ incoming.stop <= incoming.start then ranges
  else mergeReceivedRange ranges ⟨incoming.start.toNat, incoming.stop.toNat⟩

def coverSignedFrom (stop : Int) : Int -> List ByteRange -> Bool
  | next, [] => decide (stop <= next)
  | next, range :: rest =>
    if next < range.start then false
    else if next < range.stop then
      if stop <= range.stop then true else coverSignedFrom stop range.stop rest
    else coverSignedFrom stop next rest

def rangesCoverSigned (ranges : List ByteRange) (start stop : Int) : Bool :=
  decide (stop <= start) || coverSignedFrom stop start ranges

def CoveredAt (ranges : List ByteRange) (position : Int) : Prop :=
  0 <= position /\ Covered ranges position.toNat

/-- The range from -1 to 1 has the position 0, but nothing is there after its merge. -/
theorem negative_range_dropped : ¬ CoveredAt (mergeSigned [] ⟨-1, 1⟩) 0 :=
  fun covered => covered_nil 0 covered.2

variable {ranges : List ByteRange} (normal : Normal ranges)

theorem coveredAt_cons (range : ByteRange) (position : Int) : CoveredAt (range :: ranges) position <->
    (range.start <= position /\ position < range.stop) \/ CoveredAt ranges position := by
  rw [CoveredAt, covered_cons, and_or_left]
  refine or_congr_left ?_
  rw [ByteRange.Contains]
  omega

include normal

theorem mergeSigned_spec (incoming : SignedRange) :
    let merged := mergeSigned ranges incoming
    Normal merged /\ ∀ position, CoveredAt merged position <->
      incoming.Gives position \/ CoveredAt ranges position := by
  dsimp only
  rw [mergeSigned]
  split
  · refine ⟨normal, fun position => (or_iff_right ?_).symm⟩
    rw [SignedRange.Gives]
    omega
  · refine ⟨normal_mergeReceivedRange normal _, fun position => ?_⟩
    rw [CoveredAt, CoveredAt, covered_mergeReceivedRange normal, and_or_left]
    refine or_congr_left ?_
    rw [ByteRange.Contains, SignedRange.Gives]
    dsimp only
    omega

theorem foldl_mergeSigned_spec (incoming : List SignedRange) :
    let merged := incoming.foldl mergeSigned ranges
    Normal merged /\ ∀ position, CoveredAt merged position <->
      (Exists fun range => range ∈ incoming /\ range.Gives position) \/ CoveredAt ranges position := by
  induction incoming generalizing ranges with
  | nil => exact ⟨normal, fun position => by simp⟩
  | cons first rest ih =>
    have merged := mergeSigned_spec normal first
    have later := ih merged.1
    refine ⟨later.1, fun position => ?_⟩
    rw [foldl_cons, later.2, merged.2]
    simp only [mem_cons, exists_eq_or_imp, or_assoc, or_left_comm]

theorem coverSignedFrom_iff {next stop : Int} (nonempty : next < stop) : coverSignedFrom stop next ranges =
    true <-> ∀ position, next <= position -> position < stop -> CoveredAt ranges position := by
  induction ranges generalizing next with
  | nil =>
    rw [coverSignedFrom, decide_eq_true_iff]
    exact ⟨by omega, fun all => absurd (all next (by omega) nonempty).2 (covered_nil _)⟩
  | cons range rest ih =>
    have size := normal.nonempty range mem_cons_self
    have beyond {position : Int} (covered : CoveredAt rest position) : range.stop < position := by
      obtain ⟨_, other, within, above, _⟩ := covered
      have apart := rel_of_pairwise_cons normal.apart within
      omega
    simp only [coveredAt_cons]
    rw [coverSignedFrom]
    split
    · refine ⟨nofun, fun all => ?_⟩
      rcases all next (by omega) nonempty with inside | later
      · omega
      · have far := beyond later
        omega
    split
    · split
      · exact ⟨fun _ position above below => .inl (by omega), fun _ => rfl⟩
      rw [ih normal.tail (by omega)]
      refine ⟨fun all position above below => ?_, fun all position above below => ?_⟩
      · by_cases inside : position < range.stop
        · exact .inl (by omega)
        · exact .inr (all position (by omega) below)
      · exact (all position (by omega) below).resolve_left (by omega)
    · rw [ih normal.tail nonempty]
      refine forall_congr' fun position => imp_congr_right fun above => imp_congr_right fun _ => ?_
      rw [or_iff_right (by omega)]

theorem rangesCoverSigned_iff (start stop : Int) : rangesCoverSigned ranges start stop = true <->
    ∀ position, start <= position -> position < stop -> CoveredAt ranges position := by
  rw [rangesCoverSigned, Bool.or_eq_true, decide_eq_true_iff]
  by_cases empty : stop <= start
  · exact ⟨fun _ position above below => by omega, fun _ => .inl empty⟩
  · rw [or_iff_right empty, coverSignedFrom_iff normal (by omega)]

omit normal in
/-- The list that merges make is in order, with gaps and without empty ranges, and has just
the positions of the ranges that start at zero or behind it; a question is answered by
these positions. -/
theorem received_ranges_correct (incoming : List SignedRange) :
    let ranges := incoming.foldl mergeSigned []
    let arrived := fun position => Exists fun range => range ∈ incoming ∧ range.Gives position
    Normal ranges ∧ (forall position, CoveredAt ranges position <-> arrived position) ∧
      forall start stop, rangesCoverSigned ranges start stop = true <->
        forall position, start <= position -> position < stop -> arrived position := by
  intro ranges arrived
  have merged := foldl_mergeSigned_spec normal_nil incoming
  have covered (position : Int) : CoveredAt ranges position <-> arrived position :=
    (merged.2 position).trans (or_iff_left fun none => covered_nil _ none.2)
  refine ⟨merged.1, covered, fun start stop => ?_⟩
  refine (rangesCoverSigned_iff merged.1 start stop).trans ?_
  exact forall_congr' fun position => imp_congr_right fun _ => imp_congr_right fun _ => covered position

end TorrentPlayer.Storage
