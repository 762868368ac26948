import Mathlib.Data.Finset.Dedup
import Mathlib.Data.List.Induction
import Mathlib.Order.Lattice
import TorrentPlayer.Core.Torrent
import TorrentPlayer.Library.Machine

namespace TorrentPlayer.Core

open Library List

/-!
# Priorities of pieces

A piece is wanted as much as its file is, or as much as the most urgent reader
wants it, whichever is more.  Both inputs change independently, and the result
is kept in the piece entry: every operation that changes an input has to bring
the entries up to date.

`File::set_priority` sets the result without looking at the readers.  The other
operations keep the entries right, from any state in which they are.
-/

namespace PiecePriority

/-- The number of a priority in the source's enumeration. -/
def rank : PiecePriority -> Nat
  | .none => 0
  | .normal => 1
  | .high => 2
  | .readahead => 3
  | .next => 4
  | .now => 5

theorem rank_injective : Function.Injective rank := by
  intro a b same
  cases a <;> cases b <;> first | rfl | cases same

instance : LinearOrder PiecePriority :=
  LinearOrder.lift' rank rank_injective

theorem none_le (priority : PiecePriority) : .none <= priority :=
  Nat.zero_le priority.rank

end PiecePriority

/-- The pieces `[start, stop)` a reader wants downloaded. -/
structure PieceRange where
  start : Nat
  stop : Nat
  deriving DecidableEq

/-- The first piece of every range that is not empty, and the pieces after
it. -/
def readerPiecePriorities (ranges : List PieceRange) : Finset Nat × Finset Nat :=
  ranges.foldl (fun sets range =>
      if range.start < range.stop then
        (insert range.start sets.1,
          sets.2 ∪ ((List.range range.stop).filter (fun i => range.start + 1 <= i)).toFinset)
      else sets)
    (∅, ∅)

def readerPriority (ranges : List PieceRange) (piece : Nat) : PiecePriority :=
  let sets := readerPiecePriorities ranges
  if piece ∈ sets.1 then .now
  else if piece ∈ sets.2 then .high
  else .none

structure Selection where
  torrent : Torrent
  readerRanges : FiniteMap Nat PieceRange

namespace Selection

variable (selection : Selection)

def ranges : List PieceRange :=
  selection.readerRanges.entries.map Sigma.snd

def withPieces (pieces : List PieceEntry) : Selection :=
  { selection with torrent := { selection.torrent with pieces := pieces } }

/-- Publish base priorities, with what the readers want on top. -/
def setPiecePriorities (priorities : List (Nat × PiecePriority)) : Selection :=
  selection.withPieces (priorities.foldl (fun pieces wanted =>
        pieces.modify wanted.1 (fun entry =>
          { entry with
            priority := max wanted.2 (readerPriority selection.ranges wanted.1)
            basePriority := wanted.2 }))
      selection.torrent.pieces)

/-- The pieces of a file, from its place in the torrent.  The source computes
with 64-bit numbers and casts them to positions. -/
def filePieces (info : Info) (offset length : Int64) : Nat × Nat :=
  let pieceLength := Int64.ofNat info.pieceLength
  (((offset / pieceLength).toInt % 2 ^ 64).toNat,
    (((offset + length + pieceLength - 1) / pieceLength).toInt % 2 ^ 64).toNat)

/-- `File::set_priority`. -/
def setPriority (offset length : Int64) (priority : PiecePriority) : Selection :=
  match selection.torrent.info with
  | none => selection
  | some info =>
    selection.withPieces (selection.torrent.pieces.mapIdx (fun i entry =>
        if (filePieces info offset length).1 <= i /\ i < (filePieces info offset length).2 then
          { entry with priority := priority, basePriority := priority }
        else entry))

def downloadAll : Selection :=
  selection.withPieces (selection.torrent.pieces.map (fun entry =>
      if entry.basePriority = .none then
        { entry with priority := max entry.priority .normal, basePriority := .normal }
      else entry))

def target (i : Nat) (entry : PieceEntry) : PiecePriority :=
  max entry.basePriority (readerPriority selection.ranges i)

/-- Bring all entries up to date.  Nothing is rewritten when they are. -/
def applyReaderPriorities : Selection :=
  if (selection.torrent.pieces.zipIdx.all
      (fun piece => piece.1.priority = selection.target piece.2 piece.1)) = true then
    selection
  else
    selection.withPieces (selection.torrent.pieces.mapIdx (fun i entry =>
        { entry with priority := selection.target i entry }))

/-- Register a reader or move it.  A reader that stays where it is changes
nothing. -/
def setReaderPositions (reader : Nat) (range : PieceRange) : Selection :=
  let registered : Selection :=
    { selection with readerRanges := selection.readerRanges.insert reader range }
  if selection.readerRanges.lookup reader = some range then registered
  else registered.applyReaderPriorities

def clearReader (reader : Nat) : Selection :=
  applyReaderPriorities
    { selection with readerRanges := selection.readerRanges.erase reader }

end Selection

inductive SelectionLabel where
  | setPriority (offset length : Int64) (priority : PiecePriority)
  | setPiecePriorities (priorities : List (Nat × PiecePriority))
  | downloadAll
  | setReaderPositions (reader : Nat) (range : PieceRange)
  | clearReader (reader : Nat)
  | blockWritten (req : Nat)
  | queuePieceHash (piece : Nat) (queued : Bool)
  | hashResult (piece : Nat) (valid : Bool)
  | refreshPiece (piece : Nat) (complete readable : Bool)

namespace Selection

variable (selection : Selection)

def onTorrent (change : Torrent -> Torrent) : Selection :=
  { selection with torrent := change selection.torrent }

def step : SelectionLabel -> Selection
  | .setPriority offset length priority => selection.setPriority offset length priority
  | .setPiecePriorities priorities => selection.setPiecePriorities priorities
  | .downloadAll => selection.downloadAll
  | .setReaderPositions reader range => selection.setReaderPositions reader range
  | .clearReader reader => selection.clearReader reader
  | .blockWritten req => selection.onTorrent (fun torrent => torrent.finishChunkWrite req true)
  | .queuePieceHash piece queued =>
    selection.onTorrent (fun torrent => torrent.queuePieceHash piece queued)
  | .hashResult piece valid =>
    selection.onTorrent (fun torrent => torrent.applyHashResult piece valid)
  | .refreshPiece piece complete readable =>
    selection.onTorrent (fun torrent => torrent.refreshPieceCompletion piece complete readable)

/-- The info has just been set, and no reader is registered yet. -/
def Opened : Prop :=
  Exists fun info : Info => Exists fun complete : Nat -> Bool =>
    Exists fun downloadAll : Bool => Exists fun live : List (Finset Nat) =>
      selection.torrent = ({} : Torrent).setInfo info complete downloadAll live /\ selection.readerRanges = ∅

def machine : Machine Selection SelectionLabel where
  init := Opened
  step := fun selection label => some (selection.step label)

/-- What one range gives a piece: its first piece is needed now, the others are
read ahead. -/
def rangePriority (piece : Nat) (range : PieceRange) : PiecePriority :=
  if range.start < range.stop then
    if piece = range.start then .now
    else if range.start < piece /\ piece < range.stop then .high
    else .none
  else .none

def highest (ranges : List PieceRange) (piece : Nat) : PiecePriority :=
  (ranges.map (rangePriority piece)).foldr max .none

/-- Every piece has the priority that is due. -/
def Effective : Prop :=
  ∀ i entry, selection.torrent.pieces[i]? = some entry ->
    entry.priority = max entry.basePriority (highest selection.ranges i)

/-! ## The readers' part -/

variable (ranges : List PieceRange) (piece : Nat)

theorem mem_readerPiecePriorities : (piece ∈ (readerPiecePriorities ranges).1 <->
      Exists fun range : PieceRange => range ∈ ranges /\ rangePriority piece range = .now) /\
    (piece ∈ (readerPiecePriorities ranges).2 <->
      Exists fun range : PieceRange => range ∈ ranges /\ rangePriority piece range = .high) := by
  unfold readerPiecePriorities
  induction ranges using List.reverseRecOn with
  | nil => simp
  | append_singleton earlier range ih =>
    rw [foldl_append, foldl_cons, foldl_nil]
    by_cases some : range.start < range.stop
    · rw [if_pos some]
      constructor
      · rw [Finset.mem_insert, ih.1]
        by_cases first : piece = range.start
        · simp [rangePriority, some, first]
        simp only [first, false_or, mem_append, mem_singleton]
        constructor
        · rintro ⟨other, member, now⟩
          exact ⟨other, Or.inl member, now⟩
        · rintro ⟨other, member | same, now⟩
          · exact ⟨other, member, now⟩
          · rw [same, rangePriority, if_pos some, if_neg first] at now
            split at now <;> cases now
      · rw [Finset.mem_union, ih.2]
        simp only [mem_toFinset, mem_filter, mem_range, decide_eq_true_eq, mem_append, mem_singleton]
        constructor
        · rintro (⟨other, member, high⟩ | ⟨below, above⟩)
          · exact ⟨other, Or.inl member, high⟩
          · refine ⟨range, Or.inr rfl, ?_⟩
            rw [rangePriority, if_pos some, if_neg (by omega), if_pos ⟨above, below⟩]
        · rintro ⟨other, member | same, high⟩
          · exact .inl ⟨other, member, high⟩
          · right
            rw [same, rangePriority, if_pos some] at high
            split at high
            · cases high
            split at high
            · rename_i inside
              exact ⟨inside.2, inside.1⟩
            · cases high
    · rw [if_neg some, ih.1, ih.2]
      have nothing : rangePriority piece range = .none := by rw [rangePriority, if_neg some]
      simp [nothing]

theorem highest_le_iff (bound : PiecePriority) : highest ranges piece <= bound <->
    ∀ range ∈ ranges, rangePriority piece range <= bound := by
  unfold highest
  induction ranges with
  | nil => simp [PiecePriority.none_le]
  | cons range rest ih =>
    rw [map_cons, foldr_cons, max_le_iff, ih]
    simp

theorem le_highest {ranges : List PieceRange} {range : PieceRange} (member : range ∈ ranges)
    (piece : Nat) : rangePriority piece range <= highest ranges piece :=
  (highest_le_iff ranges piece _).mp le_rfl range member

/-- The order of the readers does not matter. -/
theorem highest_congr {left right : List PieceRange} (same : ∀ range, range ∈ left <-> range ∈ right)
    (piece : Nat) : highest left piece = highest right piece := by
  apply le_antisymm
  · rw [highest_le_iff]
    intro range member
    exact le_highest ((same range).mp member) piece
  · rw [highest_le_iff]
    intro range member
    exact le_highest ((same range).mpr member) piece

/-- The code's two sets give every piece the highest priority any reader wants
it with. -/
theorem readerPriority_eq_highest : readerPriority ranges piece = highest ranges piece := by
  have sets := mem_readerPiecePriorities ranges piece
  apply le_antisymm
  · unfold readerPriority
    dsimp only
    split
    next now =>
      rcases sets.1.mp now with ⟨_, member, gives⟩
      rw [<- gives]
      exact le_highest member piece
    · split
      next high =>
        rcases sets.2.mp high with ⟨_, member, gives⟩
        rw [<- gives]
        exact le_highest member piece
      · exact PiecePriority.none_le _
  · rw [highest_le_iff]
    intro range member
    unfold readerPriority
    dsimp only
    cases gives : rangePriority piece range with
    | now => rw [if_pos (sets.1.mpr ⟨range, member, gives⟩)]
    | high =>
      split
      · decide
      · rw [if_pos (sets.2.mpr ⟨range, member, gives⟩)]
    | none => exact PiecePriority.none_le _
    | normal | readahead | next =>
      unfold rangePriority at gives
      split at gives
      · split at gives
        · cases gives
        · split at gives <;> cases gives
      · cases gives

end Selection

/-- Every entry has the priorities that the entry in its place had. -/
def Torrent.KeepsPriorities (before after : Torrent) : Prop :=
  ∀ (i : Nat) (entry : PieceEntry), after.pieces[i]? = some entry ->
    Exists fun old : PieceEntry => before.pieces[i]? = some old /\
      entry.priority = old.priority /\ entry.basePriority = old.basePriority

namespace Torrent.KeepsPriorities

theorem of_edits {piece : Nat} {kind : PieceEntry -> PieceEntry -> Prop}
    {before after : Torrent} (edits : Torrent.Edits piece kind before after)
    (keeps : ∀ old entry, kind old entry ->
      entry.priority = old.priority /\ entry.basePriority = old.basePriority) :
    before.KeepsPriorities after := by
  intro i entry found
  rcases edits.entry found with ⟨old, foundOld, same | ⟨_, changed⟩⟩
  · rw [same]
    exact ⟨old, foundOld, rfl, rfl⟩
  · exact ⟨old, foundOld, keeps old entry changed⟩

variable (torrent : Torrent) (piece : Nat)

theorem finishChunkWrite (req : Nat) (written : Bool) :
    torrent.KeepsPriorities (torrent.finishChunkWrite req written) := by
  apply of_edits (torrent.finishChunkWrite_edits req written)
  intro old entry changed
  rw [changed]
  exact ⟨rfl, rfl⟩

theorem queuePieceHash (queued : Bool) : torrent.KeepsPriorities (torrent.queuePieceHash piece queued) := by
  apply of_edits (torrent.queuePieceHash_edits piece queued)
  intro old entry changed
  rw [changed]
  exact ⟨rfl, rfl⟩

theorem applyHashResult (valid : Bool) : torrent.KeepsPriorities (torrent.applyHashResult piece valid) := by
  apply of_edits (torrent.applyHashResult_edits piece valid)
  intro old entry changed
  rw [changed]
  exact ⟨rfl, rfl⟩

theorem refreshPieceCompletion (complete readable : Bool) :
    torrent.KeepsPriorities (torrent.refreshPieceCompletion piece complete readable) := by
  apply of_edits (torrent.refreshPieceCompletion_edits piece complete readable)
  intro old entry changed
  rw [changed]
  exact ⟨rfl, rfl⟩

end Torrent.KeepsPriorities

/-! ## One operation -/

namespace Selection

variable {selection : Selection}

theorem Effective.onTorrent (effective : selection.Effective) {change : Torrent -> Torrent}
    (keeps : selection.torrent.KeepsPriorities (change selection.torrent)) :
    (selection.onTorrent change).Effective := by
  intro i entry found
  rcases keeps i entry found with ⟨old, foundOld, priority, base⟩
  rw [priority, base]
  exact effective i old foundOld

section
variable (selection : Selection)

theorem ranges_withPieces (pieces : List PieceEntry) :
    (selection.withPieces pieces).ranges = selection.ranges := rfl

/-- Bringing the entries up to date makes them right whatever they were. -/
theorem effective_applyReaderPriorities : selection.applyReaderPriorities.Effective := by
  unfold applyReaderPriorities
  split
  next upToDate =>
    intro i entry found
    have checked := all_eq_true.mp upToDate (entry, i) (mem_zipIdx_iff_getElem?.mpr found)
    have due := of_decide_eq_true checked
    rw [target, readerPriority_eq_highest] at due
    exact due
  · intro i entry found
    have mapped : (selection.torrent.pieces.mapIdx (fun i entry =>
        ({ entry with priority := selection.target i entry } : PieceEntry)))[i]? = some entry := found
    rw [getElem?_mapIdx] at mapped
    rcases Option.map_eq_some_iff.mp mapped with ⟨_, _, changed⟩
    rw [<- changed, <- readerPriority_eq_highest]
    rfl

theorem mem_ranges (range : PieceRange) : range ∈ selection.ranges <->
    Exists fun reader : Nat => selection.readerRanges.lookup reader = some range := by
  unfold ranges
  rw [mem_map]
  constructor
  · rintro ⟨⟨reader, other⟩, member, same⟩
    have equal : other = range := same
    subst equal
    exact ⟨reader, (FiniteMap.mem_entries_iff _ _ _).mp member⟩
  · rintro ⟨reader, found⟩
    exact ⟨⟨reader, range⟩, (FiniteMap.mem_entries_iff _ _ _).mpr found, rfl⟩

end

theorem Effective.setReaderPositions (effective : selection.Effective) (reader : Nat)
    (range : PieceRange) : (selection.setReaderPositions reader range).Effective := by
  unfold Selection.setReaderPositions
  split
  case isFalse => exact effective_applyReaderPriorities _
  next unmoved =>
    intro i entry found
    rw [effective i entry found]
    congr 1
    apply highest_congr
    intro other
    rw [mem_ranges, mem_ranges]
    have lookups : ∀ key, (selection.readerRanges.insert reader range).lookup key =
        selection.readerRanges.lookup key := by
      intro key
      rw [FiniteMap.lookup_insert_eq]
      split
      · rename_i same
        rw [<- same]
        exact unmoved.symm
      · rfl
    simp only [lookups]

theorem Effective.modifyPiece {pieces : List PieceEntry}
    (effective : (selection.withPieces pieces).Effective) (piece : Nat) (priority : PiecePriority) :
    (selection.withPieces (pieces.modify piece (fun entry => { entry with
        priority := max priority (readerPriority selection.ranges piece)
        basePriority := priority }))).Effective := by
  intro i entry found
  have modified : (pieces.modify piece (fun entry =>
      ({ entry with
        priority := max priority (readerPriority selection.ranges piece)
        basePriority := priority } : PieceEntry)))[i]? = some entry := found
  rw [getElem?_modify] at modified
  rcases Option.map_eq_some_iff.mp modified with ⟨old, foundOld, changed⟩
  rw [<- changed, ranges_withPieces]
  split
  · rename_i same
    rw [<- same, readerPriority_eq_highest]
  · exact effective i old foundOld

theorem Effective.setPiecePriorities (effective : selection.Effective)
    (priorities : List (Nat × PiecePriority)) : (selection.setPiecePriorities priorities).Effective := by
  unfold Selection.setPiecePriorities
  have start : (selection.withPieces selection.torrent.pieces).Effective := effective
  generalize selection.torrent.pieces = pieces at start ⊢
  induction priorities generalizing pieces with
  | nil => exact start
  | cons wanted rest ih => exact ih _ (start.modifyPiece wanted.1 wanted.2)

theorem Effective.downloadAll (effective : selection.Effective) : selection.downloadAll.Effective := by
  intro i entry found
  have mapped : (selection.torrent.pieces.map (fun entry =>
      if entry.basePriority = .none then
        ({ entry with priority := max entry.priority .normal, basePriority := .normal } : PieceEntry)
      else entry))[i]? = some entry := found
  rw [getElem?_map] at mapped
  rcases Option.map_eq_some_iff.mp mapped with ⟨old, foundOld, changed⟩
  have due := effective i old foundOld
  have sameRanges : selection.downloadAll.ranges = selection.ranges := rfl
  rw [<- changed, sameRanges]
  split
  · rename_i unwanted
    rw [unwanted, max_eq_right (PiecePriority.none_le _)] at due
    rw [due, max_comm]
  · exact due

/-- The readers want no piece of the file more than the file itself is to be
wanted. -/
def ReadersBelow (selection : Selection) : SelectionLabel -> Prop
  | .setPriority offset length priority =>
    ∀ info, selection.torrent.info = some info -> ∀ i < selection.torrent.pieces.length,
        (filePieces info offset length).1 <= i /\ i < (filePieces info offset length).2 ->
          highest selection.ranges i <= priority
  | .setPiecePriorities _ | .downloadAll | .setReaderPositions _ _ | .clearReader _
  | .blockWritten _ | .queuePieceHash _ _ | .hashResult _ _ | .refreshPiece _ _ _ => True

theorem Effective.setPriority (effective : selection.Effective) {offset length : Int64}
    {priority : PiecePriority} (below : selection.ReadersBelow (.setPriority offset length priority)) :
    (selection.setPriority offset length priority).Effective := by
  unfold Selection.setPriority
  cases known : selection.torrent.info with
  | none => exact effective
  | some info =>
    intro i entry found
    have mapped : (selection.torrent.pieces.mapIdx (fun i entry =>
        if (filePieces info offset length).1 <= i /\ i < (filePieces info offset length).2 then
          ({ entry with priority := priority, basePriority := priority } : PieceEntry)
        else entry))[i]? = some entry := found
    rw [getElem?_mapIdx] at mapped
    rcases Option.map_eq_some_iff.mp mapped with ⟨old, foundOld, rfl⟩
    split
    · rename_i inside
      have here : i < selection.torrent.pieces.length :=
        (List.getElem?_eq_some_iff.mp foundOld).1
      exact (max_eq_left (below info known i here inside)).symm
    · exact effective i old foundOld

theorem Effective.step (effective : selection.Effective) {label : SelectionLabel}
    (below : selection.ReadersBelow label) : (selection.step label).Effective := by
  cases label with
  | setPriority => exact effective.setPriority below
  | setPiecePriorities priorities => exact effective.setPiecePriorities priorities
  | downloadAll => exact effective.downloadAll
  | setReaderPositions reader range => exact effective.setReaderPositions reader range
  | clearReader => exact effective_applyReaderPriorities _
  | blockWritten req => exact effective.onTorrent (.finishChunkWrite _ req true)
  | queuePieceHash piece queued => exact effective.onTorrent (.queuePieceHash _ piece queued)
  | hashResult piece valid => exact effective.onTorrent (.applyHashResult _ piece valid)
  | refreshPiece piece complete readable =>
    exact effective.onTorrent (.refreshPieceCompletion _ piece complete readable)

theorem effective_of_opened (opened : selection.Opened) : selection.Effective := by
  rcases opened with ⟨_, _, _, _, torrent, readers⟩
  intro i entry found
  have nobody : selection.ranges = [] := by
    unfold ranges
    rw [readers]
    rfl
  rw [torrent] at found
  rw [Torrent.setInfo_pieces, getElem?_map] at found
  rcases Option.map_eq_some_iff.mp found with ⟨_, _, made⟩
  rw [<- made, nobody]
  exact (max_eq_left (PiecePriority.none_le _)).symm

/-- In every run where a file is given a priority only while no reader wants
one of its pieces more, every piece has the priority that is due, in every
state reached. -/
theorem effective_of_readers_below {labels : List SelectionLabel} {selection : Selection}
    (run : machine.RunsTo ReadersBelow labels selection) : selection.Effective := by
  refine run.stateInvariant ?_ ?_
  · intro state opened
    exact effective_of_opened opened
  · intro state label after effective below taken
    cases taken
    exact effective.step below

def twoPieces : Selection where
  torrent := ({} : Torrent).setInfo ⟨1, 2⟩ (fun _ => false) false []
  readerRanges := ∅

theorem init_twoPieces : machine.init twoPieces :=
  ⟨⟨1, 2⟩, fun _ => false, false, [], rfl, rfl⟩

/-- A reader is at the first piece, and a file of both pieces is given the
highest priority. -/
def fileAboveReader : List SelectionLabel :=
  [.setReaderPositions 1 ⟨0, 1⟩, .setPriority 0 2 .now]

theorem effective_fileAboveReader : Exists fun selection : Selection =>
      machine.RunsTo ReadersBelow fileAboveReader selection ∧ selection.Effective := by
  have run : machine.RunsTo ReadersBelow fileAboveReader (fileAboveReader.foldl step twoPieces) := by
    refine .of_exec init_twoPieces ?_ rfl
    refine ⟨trivial, ⟨fun _ _ i _ _ => ?_, trivial⟩⟩
    rw [highest_le_iff]
    intro range _
    generalize rangePriority i range = priority
    cases priority <;> decide
  exact ⟨_, run, effective_of_readers_below run⟩

/-- A reader is at the first piece, and the file is turned off under it. -/
def fileBelowReader : List SelectionLabel :=
  [.setReaderPositions 1 ⟨0, 1⟩, .setPriority 0 2 .none]

/-- The piece a reader waits for is not wanted any more. -/
theorem reader_forgotten_by_setPriority : Exists fun selection : Selection =>
      machine.RunsTo Machine.always fileBelowReader selection ∧ selection.ranges = [⟨0, 1⟩] ∧
        (selection.torrent.pieces[0]?).map PieceEntry.priority = some .none ∧
        highest selection.ranges 0 = .now := by
  have run : machine.RunsTo Machine.always fileBelowReader (fileBelowReader.foldl step twoPieces) :=
    .of_exec init_twoPieces (Machine.permits_always _ _ _) rfl
  exact ⟨_, run, by decide, by decide, by decide⟩

end Selection
end TorrentPlayer.Core
