import TorrentPlayer.Library.Machine
import Mathlib.Data.Finset.Basic
import Mathlib.Data.Finset.Insert
import Mathlib.Tactic.Ring

namespace TorrentPlayer.Playback

open Library List

/-!
# Data that was played before it was checked

`CoreReaderBackend` of `wt-engine/src/playback_core.rs` hands the player bytes of
pieces whose hash was not checked yet.  It remembers those pieces, and ends the
stream when one of them turns out to be wrong.  It learns of that from the set
of failed pieces and the count of failures, which `apply_hash_result` of
`wt-core/src/torrent.rs` keeps.

A read first looks at the count, then, if the count has moved, at the set.  Then
it takes its bytes, and at last it notes the pieces that are not complete.  A
hash result edits the set, counts a failure, and enters the piece.  All of these
are single steps here.  One thread applies the hash results.
-/

inductive Hashing where
  /-- The result is known, and the set of failed pieces is next. -/
  | judged (piece : Nat) (valid : Bool)
  /-- The piece is in the set, and the failure is counted next. -/
  | counting (piece : Nat)
  | entering (piece : Nat) (valid : Bool)
  deriving DecidableEq

/-- Where a read is.  `must` says that data the player has had failed before
the read began.  `taken` are the pieces that were not complete when their bytes
were taken; `left` are still to be noted. -/
inductive Reading where
  | idle
  | loading (must : Bool)
  | looking (must : Bool)
  | reading (must : Bool)
  | noting (must : Bool) (count : Nat) (left : List Nat) (taken : Finset Nat)

namespace Reading

def must : Reading -> Bool
  | .idle => false
  | .loading must | .looking must | .reading must | .noting must _ _ _ => must

def isLooking : Reading -> Bool
  | .looking _ => true
  | .idle | .loading _ | .reading _ | .noting _ _ _ _ => false

/-- The pieces whose unchecked bytes were taken, and which are still to be
noted. -/
def unnoted : Reading -> Finset Nat
  | .noting _ _ left taken => taken.filter (fun piece => piece ∈ left)
  | .idle | .loading _ | .looking _ | .reading _ => ∅

end Reading

/-- What a read gave the player: some bytes, or an error. -/
structure Answer where
  must : Bool
  bytes : Option Nat
  deriving DecidableEq

/-- `given`, `due`, `answers` and what `Reading` has beside `left` are not part
of the code.  `given` are the pieces of which bytes of the present data were
returned unchecked; `due` are those whose data failed since, and which no error
was returned for. -/
structure ServedPieces where
  pieceLength : Nat
  complete : Finset Nat := ∅
  failedPieces : Finset Nat := ∅
  hashFailGeneration : Nat := 0
  hasher : Option Hashing := none
  servedUnverified : Finset Nat := ∅
  seenHashFailures : Nat := 0
  phase : Reading := .idle
  given : Finset Nat := ∅
  due : Finset Nat := ∅
  answers : List Answer := []

namespace ServedPieces

/-- The pieces that some bytes lie in. -/
def piecesOf (pieceLength offset count : Nat) : List Nat :=
  if count = 0 then []
  else
    List.range' (offset / pieceLength) ((offset + count - 1) / pieceLength + 1 - offset / pieceLength)

variable (state : ServedPieces)

def servedFailed : Finset Nat :=
  state.servedUnverified.filter (fun piece => piece ∈ state.failedPieces)

/-- The failed pieces whose failure is not counted yet. -/
def beingCounted (piece : Nat) : Bool :=
  state.hasher == some (.counting piece)

/-- A read looks at the count of failures. -/
def load (must : Bool) : ServedPieces :=
  if state.hashFailGeneration = state.seenHashFailures then
    { state with phase := .reading must }
  else
    { state with seenHashFailures := state.hashFailGeneration, phase := .looking must }

/-- It looks at the set of failed pieces, and may end with an error. -/
def look (must : Bool) : ServedPieces :=
  if state.servedFailed = ∅ then { state with phase := .reading must }
  else
    { state with
      servedUnverified := state.servedUnverified.filter (fun piece => piece ∉ state.failedPieces)
      phase := .idle
      given := state.given.filter (fun piece => !state.beingCounted piece)
      due := ∅
      answers := state.answers ++ [{ must := must, bytes := none }] }

/-- It takes bytes, wherever they come from. -/
def take (must : Bool) (offset count : Nat) : ServedPieces :=
  let pieces := piecesOf state.pieceLength offset count
  let unverified := pieces.toFinset.filter (fun piece => piece ∉ state.complete)
  { state with
    phase := .noting must count pieces unverified
    given := state.given ∪ unverified }

def note (must : Bool) (count : Nat) (taken : Finset Nat) : List Nat -> ServedPieces
  | [] =>
    { state with
      phase := .idle
      answers := state.answers ++ [{ must := must, bytes := some count }] }
  | piece :: left =>
    { state with
      servedUnverified :=
        if piece ∈ state.complete then state.servedUnverified
        else insert piece state.servedUnverified
      phase := .noting must count left taken }

def hash : Hashing -> ServedPieces
  | .judged piece true =>
    { state with
      failedPieces := state.failedPieces.erase piece
      hasher := some (.entering piece true) }
  | .judged piece false =>
    { state with
      failedPieces := insert piece state.failedPieces
      hasher := some (.counting piece) }
  | .counting piece =>
    { state with
      hashFailGeneration := state.hashFailGeneration + 1
      hasher := some (.entering piece false)
      given := state.given.erase piece
      due := if piece ∈ state.given then insert piece state.due else state.due }
  | .entering piece valid =>
    { state with
      complete := if valid then insert piece state.complete else state.complete.erase piece
      hasher := none }

inductive Label where
  | start
  | load
  | look
  | take (offset count : Nat)
  /-- The read ends with another error. -/
  | giveUp
  | note
  | result (piece : Nat) (valid : Bool)
  | hash
  | found (piece : Nat)
  /-- The storage dropped the piece. -/
  | evict (piece : Nat)

def step : Label -> Option ServedPieces
  | .start =>
    match state.phase with
    | .idle => some { state with phase := .loading (decide (state.due ≠ ∅)) }
    | _ => none
  | .load =>
    match state.phase with
    | .loading must => some (state.load must)
    | _ => none
  | .look =>
    match state.phase with
    | .looking must => some (state.look must)
    | _ => none
  | .take offset count =>
    match state.phase with
    | .reading must => some (state.take must offset count)
    | _ => none
  | .giveUp =>
    match state.phase with
    | .reading must =>
      some { state with
        phase := .idle, answers := state.answers ++ [{ must := must, bytes := none }] }
    | _ => none
  | .note =>
    match state.phase with
    | .noting must count left taken => some (state.note must count taken left)
    | _ => none
  | .result piece valid =>
    match state.hasher with
    | none => some { state with hasher := some (.judged piece valid) }
    | some _ => none
  | .hash => state.hasher.map state.hash
  | .found piece => some { state with complete := insert piece state.complete }
  | .evict piece =>
    some { state with complete := state.complete.erase piece, given := state.given.erase piece }

def machine : Machine ServedPieces Label where
  init := fun state => Exists fun pieceLength => Exists fun complete => Exists fun failed =>
    Exists fun generation =>
      state = { pieceLength := pieceLength, complete := complete, failedPieces := failed
                hashFailGeneration := generation }
  step := step

variable {state after : ServedPieces}

structure Tracked (state : ServedPieces) : Prop where
  seen : state.seenHashFailures <= state.hashFailGeneration
  counted : ∀ piece, state.hasher = some (.counting piece) -> piece ∈ state.failedPieces
  fresh : ∀ piece ∈ state.phase.unnoted, piece ∉ state.complete
  /-- A piece with unchecked bytes at the player is remembered, or will be. -/
  given : ∀ piece ∈ state.given, piece ∈ state.servedUnverified ∨ piece ∈ state.phase.unnoted
  /-- So is one whose data failed, and it is in the set of failed pieces. -/
  due : ∀ piece ∈ state.due, piece ∈ state.failedPieces /\
    (piece ∈ state.servedUnverified ∨ piece ∈ state.phase.unnoted)
  unread : state.due ≠ ∅ -> state.seenHashFailures ≠ state.hashFailGeneration ∨ state.phase.isLooking = true
  must : state.phase.must = true -> state.due ≠ ∅
  /-- A read that has to fail gets no further than the set of failed pieces. -/
  early : state.phase.must = true ->
    (Exists fun must => state.phase = .loading must) ∨ state.phase.isLooking = true
  answers : ∀ answer ∈ state.answers, answer.must = true -> answer.bytes = none

/-- A failure is not hidden: no success of a piece takes it from the set of
failed pieces before an error was returned for its failure; no piece becomes
complete while a read has unchecked bytes of it that it did not note yet; and
when an error is returned, every piece of which unchecked bytes of newer data
were returned is not in the set. -/
def Careful (state : ServedPieces) (label : Label) : Prop :=
  match label with
  | .hash =>
    match state.hasher with
    | some (.judged piece true) => piece ∉ state.due
    | some (.entering piece true) => piece ∉ state.phase.unnoted
    | some (.judged _ false) | some (.counting _) | some (.entering _ false) | none => True
  | .found piece => piece ∉ state.phase.unnoted
  | .look => state.servedFailed = ∅ ∨ ∀ piece ∈ state.given,
      piece ∈ state.failedPieces -> state.beingCounted piece = true
  | .start | .load | .take _ _ | .giveUp | .note | .result _ _ | .evict _ => True

/-! ## Steps of a read -/

theorem Tracked.start (tracked : Tracked state) (isIdle : state.phase = .idle) :
    Tracked { state with phase := .loading (decide (state.due ≠ ∅)) } := by
  have given := tracked.given
  have due := tracked.due
  have unread := tracked.unread
  rw [isIdle] at given due unread
  refine ⟨tracked.seen, tracked.counted, nofun, given, due, unread, ?_, ?_, tracked.answers⟩
  · intro must
    exact of_decide_eq_true must
  · intro _
    exact .inl ⟨_, rfl⟩

variable {must : Bool}

theorem Tracked.read (tracked : Tracked state) (empty : state.phase.unnoted = ∅)
    (none_ : state.due = ∅) (owed : must = true -> state.due ≠ ∅) :
    Tracked { state with phase := .reading must } := by
  have given := tracked.given
  have due := tracked.due
  rw [empty] at given due
  have free : must = false := by
    cases must with
    | false => rfl
    | true => exact absurd none_ (owed rfl)
  subst free
  refine ⟨tracked.seen, tracked.counted, nofun, given, due, ?_, nofun, nofun, tracked.answers⟩
  intro some_
  exact absurd none_ some_

theorem Tracked.load (tracked : Tracked state)
    (isLoading : state.phase = .loading must) : Tracked (state.load must) := by
  have given := tracked.given
  have due := tracked.due
  have unread := tracked.unread
  have owed := tracked.must
  rw [isLoading] at given due unread owed
  unfold ServedPieces.load
  split
  · rename_i same
    -- The count has not moved, so no failure is due.
    have none_ : state.due = ∅ := by
      by_contra some_
      rcases unread some_ with moved | impossible
      · exact moved same.symm
      · cases impossible
    exact tracked.read (by rw [isLoading]; rfl) none_ owed
  · refine ⟨Nat.le_refl _, tracked.counted, nofun, given, due, ?_, owed, ?_, tracked.answers⟩
    · intro _
      exact .inr rfl
    · intro _
      exact .inr rfl

theorem mem_servedFailed (piece : Nat) : piece ∈ state.servedFailed <->
    piece ∈ state.servedUnverified /\ piece ∈ state.failedPieces := by
  rw [servedFailed, Finset.mem_filter]

section
variable (tracked : Tracked state)
include tracked

theorem Tracked.answered {new : Answer} (fails : new.must = true -> new.bytes = none) :
    ∀ answer ∈ state.answers ++ [new], answer.must = true -> answer.bytes = none := by
  intro answer member isMust
  rcases mem_append.mp member with old | last
  · exact tracked.answers answer old isMust
  rw [mem_singleton] at last
  rw [last] at isMust ⊢
  exact fails isMust

theorem Tracked.look (isLooking : state.phase = .looking must)
    (careful : state.servedFailed = ∅ \/ ∀ piece ∈ state.given,
      piece ∈ state.failedPieces -> state.beingCounted piece = true) :
    Tracked (state.look must) := by
  have given := tracked.given
  have due := tracked.due
  have owed := tracked.must
  rw [isLooking] at given due owed
  have remembered : ∀ piece ∈ state.due, piece ∈ state.servedFailed := by
    intro piece isDue
    rcases (due piece isDue).2 with served | impossible
    · exact (mem_servedFailed piece).mpr ⟨served, (due piece isDue).1⟩
    · cases impossible
  unfold ServedPieces.look
  split
  · rename_i nothing
    have none_ : state.due = ∅ := by
      rw [Finset.eq_empty_iff_forall_notMem]
      intro piece isDue
      have found := remembered piece isDue
      rw [nothing] at found
      cases found
    exact tracked.read (by rw [isLooking]; rfl) none_ owed
  · rename_i something
    have newer := careful.resolve_left something
    refine ⟨tracked.seen, tracked.counted, nofun, ?_, nofun, ?_, nofun, nofun, ?_⟩
    · intro piece isGiven
      rw [Finset.mem_filter, Bool.not_eq_true'] at isGiven
      left
      rw [Finset.mem_filter]
      refine ⟨?_, ?_⟩
      · rcases given piece isGiven.1 with served | impossible
        · exact served
        · cases impossible
      · intro failed
        have counted := newer piece isGiven.1 failed
        rw [isGiven.2] at counted
        cases counted
    · intro impossible
      exact absurd rfl impossible
    · exact tracked.answered fun _ => rfl

/-- A read that got past the checks has nothing to report. -/
theorem Tracked.free (notLoading : ∀ must, state.phase ≠ .loading must)
    (notLooking : state.phase.isLooking = false) : state.phase.must = false := by
  rw [Bool.eq_false_iff]
  intro must
  rcases tracked.early must with ⟨other, isLoading⟩ | isLooking
  · exact notLoading other isLoading
  rw [notLooking] at isLooking
  cases isLooking

theorem Tracked.take (isReading : state.phase = .reading must) (offset count : Nat) :
    Tracked (state.take must offset count) := by
  have free : must = false := by
    have none_ := tracked.free (fun other same => by rw [isReading] at same; cases same)
      (by rw [isReading]; rfl)
    rwa [isReading] at none_
  subst free
  have given := tracked.given
  have due := tracked.due
  have unread := tracked.unread
  rw [isReading] at given due unread
  have unnoted : (state.take false offset count).phase.unnoted =
      (piecesOf state.pieceLength offset count).toFinset.filter (fun piece => piece ∉ state.complete) := by
    refine Finset.filter_true_of_mem fun piece member => ?_
    exact mem_toFinset.mp (Finset.mem_filter.mp member).1
  refine ⟨tracked.seen, tracked.counted, ?_, ?_, ?_, ?_, nofun, nofun, tracked.answers⟩
  · intro piece member
    rw [unnoted, Finset.mem_filter] at member
    exact member.2
  · intro piece isGiven
    rw [unnoted]
    rcases Finset.mem_union.mp isGiven with old | new
    · rcases given piece old with served | impossible
      · exact .inl served
      · cases impossible
    · exact .inr new
  · intro piece isDue
    refine ⟨(due piece isDue).1, ?_⟩
    rcases (due piece isDue).2 with served | impossible
    · exact .inl served
    · cases impossible
  · intro some_
    rcases unread some_ with moved | impossible
    · exact .inl moved
    · cases impossible

theorem Tracked.giveUp (isReading : state.phase = .reading must) : Tracked { state with
      phase := .idle, answers := state.answers ++ [{ must := must, bytes := none }] } := by
  have given := tracked.given
  have due := tracked.due
  have unread := tracked.unread
  rw [isReading] at given due unread
  refine ⟨tracked.seen, tracked.counted, nofun, given, due, unread, nofun, nofun, ?_⟩
  exact tracked.answered fun _ => rfl

theorem Tracked.note {count : Nat} {taken : Finset Nat}
    {left : List Nat} (isNoting : state.phase = .noting must count left taken) :
    Tracked (state.note must count taken left) := by
  have free : must = false := by
    have none_ := tracked.free (fun other same => by rw [isNoting] at same; cases same)
      (by rw [isNoting]; rfl)
    rwa [isNoting] at none_
  subst free
  have given := tracked.given
  have due := tracked.due
  have unread := tracked.unread
  have fresh := tracked.fresh
  rw [isNoting] at given due unread fresh
  cases left with
  | nil =>
    have empty : (Reading.noting false count [] taken).unnoted = ∅ :=
      Finset.filter_false_of_mem (fun _ _ => not_mem_nil)
    rw [empty] at given due
    refine ⟨tracked.seen, tracked.counted, nofun, given, due, unread, nofun, nofun, ?_⟩
    exact tracked.answered nofun
  | cons first left =>
    -- A piece that was still to be noted is noted now, or later.
    have passes : ∀ piece, piece ∈ state.servedUnverified \/
        piece ∈ (Reading.noting false count (first :: left) taken).unnoted ->
        piece ∈ (state.note false count taken (first :: left)).servedUnverified \/
          piece ∈ (Reading.noting false count left taken).unnoted := by
      intro piece remembered
      rcases remembered with served | unnoted
      · left
        show piece ∈ if first ∈ state.complete then state.servedUnverified
          else insert first state.servedUnverified
        split
        · exact served
        · exact Finset.mem_insert_of_mem served
      · have incomplete := fresh piece unnoted
        rw [Reading.unnoted, Finset.mem_filter] at unnoted
        rcases mem_cons.mp unnoted.2 with same | later
        · left
          show piece ∈ if first ∈ state.complete then state.servedUnverified
            else insert first state.servedUnverified
          rw [<- same, if_neg incomplete]
          exact Finset.mem_insert_self _ _
        · right
          rw [Reading.unnoted, Finset.mem_filter]
          exact ⟨unnoted.1, later⟩
    refine ⟨tracked.seen, tracked.counted, ?_, ?_, ?_, unread, nofun, nofun, tracked.answers⟩
    · intro piece member
      refine fresh piece ?_
      have inLeft : piece ∈ (Reading.noting false count left taken).unnoted := member
      rw [Reading.unnoted, Finset.mem_filter] at inLeft ⊢
      exact ⟨inLeft.1, mem_cons_of_mem _ inLeft.2⟩
    · intro piece isGiven
      exact passes piece (given piece isGiven)
    · intro piece isDue
      exact ⟨(due piece isDue).1, passes piece (due piece isDue).2⟩

end

/-! ## Steps of a hash result -/

variable {piece : Nat}

section
variable (tracked : Tracked state)
include tracked

theorem Tracked.judgedTrue (reported : piece ∉ state.due) : Tracked (state.hash (.judged piece true)) := by
  refine { tracked with counted := nofun, due := ?_ }
  intro other isDue
  refine ⟨?_, (tracked.due other isDue).2⟩
  show other ∈ state.failedPieces.erase piece
  rw [Finset.mem_erase]
  exact ⟨fun same => reported (same ▸ isDue), (tracked.due other isDue).1⟩

theorem Tracked.judgedFalse (piece : Nat) : Tracked (state.hash (.judged piece false)) := by
  refine { tracked with counted := ?_, due := ?_ }
  · intro other same
    cases same
    exact Finset.mem_insert_self _ _
  · intro other isDue
    exact ⟨Finset.mem_insert_of_mem (tracked.due other isDue).1, (tracked.due other isDue).2⟩

/-- The failure is counted: from here on it is due, if the player has some of
the data. -/
theorem Tracked.counting (isCounting : state.hasher = some (.counting piece)) :
    Tracked (state.hash (.counting piece)) := by
  have moved : state.seenHashFailures ≠ state.hashFailGeneration + 1 := by
    have seen := tracked.seen
    omega
  refine ⟨?_, ?_, tracked.fresh, ?_, ?_, fun _ => Or.inl moved, ?_, tracked.early, tracked.answers⟩
  · have seen := tracked.seen
    show state.seenHashFailures <= state.hashFailGeneration + 1
    omega
  · nofun
  · intro other isGiven
    exact tracked.given other (Finset.mem_of_mem_erase isGiven)
  · intro other isDue
    have cases_ : other ∈ if piece ∈ state.given then insert piece state.due else state.due := isDue
    split at cases_
    · rename_i isGiven
      rcases Finset.mem_insert.mp cases_ with same | old
      · rw [same]
        exact ⟨tracked.counted piece isCounting, tracked.given piece isGiven⟩
      · exact tracked.due other old
    · exact tracked.due other cases_
  · intro must
    have before := tracked.must must
    show (if piece ∈ state.given then insert piece state.due else state.due) ≠ ∅
    split
    · exact Finset.insert_ne_empty _ _
    · exact before

theorem Tracked.entering {valid : Bool} (noted : valid = true -> piece ∉ state.phase.unnoted) :
    Tracked (state.hash (.entering piece valid)) := by
  refine { tracked with counted := nofun, fresh := ?_ }
  intro other unnoted
  have incomplete := tracked.fresh other unnoted
  show other ∉ if valid then insert piece state.complete else state.complete.erase piece
  split
  · rename_i isValid
    rw [Finset.mem_insert, not_or]
    refine ⟨fun same => noted isValid ?_, incomplete⟩
    rw [<- same]
    exact unnoted
  · exact fun member => incomplete (Finset.mem_of_mem_erase member)

theorem Tracked.hash {hashing : Hashing} (isHashing : state.hasher = some hashing)
    (careful : Careful state .hash) : Tracked (state.hash hashing) := by
  simp only [Careful, isHashing] at careful
  cases hashing with
  | judged piece valid =>
    cases valid with
    | true => exact tracked.judgedTrue careful
    | false => exact tracked.judgedFalse piece
  | counting => exact tracked.counting isHashing
  | entering piece valid =>
    cases valid with
    | true => exact tracked.entering fun _ => careful
    | false => exact tracked.entering nofun

theorem Tracked.found (noted : piece ∉ state.phase.unnoted) :
    Tracked { state with complete := insert piece state.complete } := by
  refine { tracked with fresh := ?_ }
  intro other unnoted
  rw [Finset.mem_insert, not_or]
  refine ⟨fun same => noted ?_, tracked.fresh other unnoted⟩
  rw [<- same]
  exact unnoted

theorem Tracked.evict (piece : Nat) : Tracked { state with
      complete := state.complete.erase piece, given := state.given.erase piece } := by
  refine { tracked with fresh := ?_, given := ?_ }
  · intro other unnoted member
    exact tracked.fresh other unnoted (Finset.mem_of_mem_erase member)
  · intro other isGiven
    exact tracked.given other (Finset.mem_of_mem_erase isGiven)

end

theorem Tracked.step {label : Label} (tracked : Tracked state) (careful : Careful state label)
    (moved : ServedPieces.step state label = some after) : Tracked after := by
  cases label <;> simp only [ServedPieces.step] at moved
  case start =>
    split at moved
    · rename_i isIdle
      cases moved
      exact tracked.start isIdle
    · cases moved
  case load =>
    split at moved
    · rename_i must isLoading
      cases moved
      exact tracked.load isLoading
    · cases moved
  case look =>
    split at moved
    · rename_i must isLooking
      cases moved
      exact tracked.look isLooking careful
    · cases moved
  case take offset count =>
    split at moved
    · rename_i must isReading
      cases moved
      exact tracked.take isReading offset count
    · cases moved
  case giveUp =>
    split at moved
    · rename_i must isReading
      cases moved
      exact tracked.giveUp isReading
    · cases moved
  case note =>
    split at moved
    · rename_i must count left taken isNoting
      cases moved
      exact tracked.note isNoting
    · cases moved
  case result piece valid =>
    split at moved
    · cases moved
      refine { tracked with counted := ?_ }
      nofun
    · cases moved
  case hash =>
    rcases Option.map_eq_some_iff.mp moved with ⟨hashing, isHashing, rfl⟩
    exact tracked.hash isHashing careful
  case found piece =>
    cases moved
    exact tracked.found careful
  case evict piece =>
    cases moved
    exact tracked.evict piece

/-- In every run in which no failure is hidden, a read that begins after data the
player has had failed its check returns an error and no bytes. -/
theorem fails_after_bad_data {labels : List Label} (run : machine.RunsTo Careful labels state) :
    forall answer, answer ∈ state.answers -> answer.must = true -> answer.bytes = none := by
  have tracked : Tracked state := by
    refine run.stateInvariant ?_ (fun _ _ _ tracked careful moved => tracked.step careful moved)
    rintro first ⟨pieceLength, complete, failed, generation, rfl⟩
    refine ⟨Nat.zero_le _, nofun, nofun, nofun, nofun, ?_, nofun, nofun, nofun⟩
    intro impossible
    exact absurd rfl impossible
  exact tracked.answers

instance (state : ServedPieces) (label : Label) : Decidable (Careful state label) :=
  match label with
  | .hash =>
    match isHasher : state.hasher with
    | some (.judged piece true) =>
      decidable_of_iff (piece ∉ state.due) (by simp only [Careful, isHasher])
    | some (.entering piece true) =>
      decidable_of_iff (piece ∉ state.phase.unnoted) (by simp only [Careful, isHasher])
    | some (.judged _ false) | some (.counting _) | some (.entering _ false) | none =>
      isTrue (by simp only [Careful, isHasher])
  | .found piece => inferInstanceAs (Decidable (piece ∉ state.phase.unnoted))
  | .look => inferInstanceAs (Decidable (_ ∨ ∀ piece ∈ state.given, _))
  | .start | .load | .take _ _ | .giveUp | .note | .result _ _ | .evict _ => isTrue trivial

def onePiece : ServedPieces :=
  { pieceLength := 16384 }

theorem onePiece_init : machine.init onePiece :=
  ⟨16384, ∅, ∅, 0, rfl⟩

/-- A read of the piece before it is checked, and then its failure. -/
def playedThenFailed : List Label :=
  [.start, .load, .take 0 100, .note, .note, .result 0 false, .hash, .hash, .hash]

def nextRead : List Label :=
  [.start, .load, .look]

theorem fails_after_bad_data_onePiece :
    let reached := (machine.exec onePiece (playedThenFailed ++ nextRead)).getD onePiece
    reached.answers = [⟨false, some 100⟩, ⟨true, none⟩] ∧
      forall answer, answer ∈ reached.answers -> answer.must = true -> answer.bytes = none := by
  have run : machine.RunsTo Careful (playedThenFailed ++ nextRead)
      ((machine.exec onePiece (playedThenFailed ++ nextRead)).getD onePiece) :=
    .of_exec onePiece_init (by decide +kernel) rfl
  exact ⟨by decide +kernel, fails_after_bad_data run⟩

/-- The piece fails, is fetched again and passes before the next read.  That
read gives more bytes. -/
theorem bad_data_hidden :
    let labels := playedThenFailed ++ [.result 0 true, .hash, .hash] ++ nextRead ++
      [.take 100 100, .note, .note]
    let reached := (machine.exec onePiece labels).getD onePiece
    machine.RunsTo Machine.always labels reached ∧
      reached.answers = [⟨false, some 100⟩, ⟨true, some 100⟩] := by
  refine ⟨.of_exec onePiece_init (machine.permits_always _ _) rfl, ?_⟩
  decide +kernel

end ServedPieces
end TorrentPlayer.Playback
