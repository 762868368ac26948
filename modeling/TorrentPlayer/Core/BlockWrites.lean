import TorrentPlayer.Core.PieceChecks

namespace TorrentPlayer.Core

open Library ChunkBits Torrent

/-!
# Who writes a block

`handle_piece` of `wt-core/src/peer_conn.rs` stores the data of a Piece message
after `begin_chunk_write` has let it, and `finish_chunk_write` ends the write
(`wt-core/src/torrent_impls.rs`).  Any number of connections are in there at the
same time.  Letting a write in takes four looks, each of them atomic: at the
entry of the piece, at the received bit, at the reservations, and at the received
bit again.

Here each look and each update is a step.  Entries change and received bits go
at any time, as hash results and the storage decide.
-/

inductive WriteStage where
  /-- Looks at the entry of the piece. -/
  | entry
  /-- Looks at the received bit. -/
  | received
  | reserve
  /-- Has the reservation, and looks at the received bit again. -/
  | again
  | storing
  /-- Sets the received bit. -/
  | marking
  /-- Notes that the piece is partly there. -/
  | noting
  /-- Gives the reservation back. -/
  | ending
  deriving DecidableEq

def WriteStage.holds : WriteStage -> Bool
  | .entry | .received | .reserve => false
  | .again | .storing | .marking | .noting | .ending => true

/-- A Piece message on its way into the storage.  `req` is the block that the
message is taken for. -/
structure BlockWrite where
  req : Nat
  index : Nat
  start : Nat
  length : Nat
  stage : WriteStage := .entry
  deriving DecidableEq

namespace BlockWrite

/-- A message is taken for the block that its first byte lies in. -/
def ofMessage (torrent : Torrent) (index start length : Nat) : BlockWrite :=
  { req := torrent.reqIndex index start, index := index, start := start, length := length }

/-- The next step of a write, and what it does then.  The environment decides
whether the storage takes the data. -/
def advance (torrent : Torrent) (write : BlockWrite) (fine : Bool) : Torrent × Option WriteStage :=
  match write.stage with
  | .entry =>
    let settled := torrent.info.isSome && torrent.pieces[(torrent.blockCoord write.req).piece]?.any
      (fun p => p.complete || p.checking)
    (torrent, if settled then none else some .received)
  | .received =>
    (torrent, if torrent.dirtyChunks.contains write.req then none else some .reserve)
  | .reserve =>
    (torrent.withBlocks (torrent.blocks.beginWrite write.req).2,
      if (torrent.blocks.beginWrite write.req).1 then some .again else none)
  | .again =>
    (torrent, some (if torrent.dirtyChunks.contains write.req then .ending else .storing))
  | .storing =>
    let written := fine && (torrent.chunkStorageError write.index write.start write.length).isNone
    (torrent, some (if written then .marking else .ending))
  | .marking =>
    ({ torrent with dirtyChunks := torrent.dirtyChunks.insert write.req }, some .noting)
  | .noting =>
    (if torrent.info.isSome then
        torrent.modifyPiece (torrent.blockCoord write.req).piece (fun p => { p with partly := true })
      else torrent, some .ending)
  | .ending => (torrent.withBlocks (torrent.blocks.endWrite write.req), none)

/-- A write that no other thread interrupts. -/
def alone (write : BlockWrite) (torrent : Torrent) : List Bool -> Torrent × Option WriteStage
  | [] => (torrent, some write.stage)
  | fine :: rest =>
    match write.advance torrent fine with
    | (after, none) => (after, none)
    | (after, some stage) => { write with stage := stage }.alone after rest

/-! ## Uninterrupted writes

`beginChunkWrite` and `finishChunkWrite`, one step in the other modules, are what a
write does alone. -/

variable (torrent : Torrent) (write : BlockWrite)

theorem alone_entry : { write with stage := .entry }.alone torrent [true, true, true, true] =
    ((torrent.beginChunkWrite write.req).2,
      if (torrent.beginChunkWrite write.req).1 then some .storing else none) := by
  unfold beginChunkWrite
  by_cases settled : (torrent.info.isSome && torrent.pieces[(torrent.blockCoord write.req).piece]?.any
      (fun p => p.complete || p.checking)) = true
  · simp only [alone, advance, settled, if_true]
    rfl
  by_cases dirty : torrent.dirtyChunks.contains write.req = true
  · simp only [alone, advance, if_neg settled, dirty, if_true]
    rfl
  by_cases free : (torrent.blocks.beginWrite write.req).1 = true
  · simp only [alone, advance, if_neg settled, if_neg dirty, free, if_true]
    rw [show (torrent.withBlocks (torrent.blocks.beginWrite write.req).2).dirtyChunks =
      torrent.dirtyChunks from rfl, if_neg dirty]
  · simp only [alone, advance, if_neg settled, if_neg dirty, if_neg free]

theorem alone_marking : { write with stage := .marking }.alone torrent [true, true, true] =
    (torrent.finishChunkWrite write.req true, none) := rfl

theorem alone_ending : { write with stage := .ending }.alone torrent [true] =
    (torrent.finishChunkWrite write.req false, none) := rfl

end BlockWrite

structure BlockWriters where
  torrent : Torrent
  writes : FiniteMap Nat BlockWrite := ∅

namespace BlockWriters

/-- A write goes on with its next stage, or is over. -/
def put (state : BlockWriters) (id : Nat) (write : BlockWrite) (torrent : Torrent) :
    Option WriteStage -> BlockWriters
  | some stage => { torrent := torrent, writes := state.writes.insert id { write with stage := stage } }
  | none => { torrent := torrent, writes := state.writes.erase id }

inductive Label where
  /-- A connection gets a Piece message that it waited for. -/
  | deliver (id index start length : Nat)
  | run (id : Nat) (fine : Bool)
  | clear (piece : Nat)
  | edit (piece : Nat) (entry : PieceEntry)

def step (state : BlockWriters) : Label -> Option BlockWriters
  | .deliver id index start length =>
    if (state.writes.lookup id).isSome then none
    else
      some { state with
        writes := state.writes.insert id (.ofMessage state.torrent index start length) }
  | .run id fine =>
    (state.writes.lookup id).map (fun write =>
      state.put id write (write.advance state.torrent fine).1 (write.advance state.torrent fine).2)
  | .clear piece => some { state with torrent := state.torrent.removeDirtyRange piece }
  | .edit piece entry =>
    some { state with torrent := state.torrent.modifyPiece piece (fun _ => entry) }

/-- The info is known, and nothing was received yet. -/
def machine : Machine BlockWriters Label where
  init := fun state => Exists fun info => Exists fun complete => Exists fun downloadAll =>
    Exists fun live => state = { torrent := ({} : Torrent).setInfo info complete downloadAll live }
  step := step

/-! ## Exclusion -/

/-- What every write in progress can rely on. -/
structure Exclusive (state : BlockWriters) : Prop where
  reserved : ∀ id write, state.writes.lookup id = some write -> write.stage.holds = true ->
    state.torrent.blocks.writing.contains write.req = true
  single : ∀ id other write rival, state.writes.lookup id = some write ->
    state.writes.lookup other = some rival -> write.stage.holds = true ->
    rival.stage.holds = true -> write.req = rival.req -> id = other
  /-- A block that is being stored was not received. -/
  clean : ∀ id write, state.writes.lookup id = some write ->
    write.stage = .storing ∨ write.stage = .marking ->
    state.torrent.dirtyChunks.contains write.req = false
  covered : ∀ id write, state.writes.lookup id = some write ->
    state.torrent.blocks.writing.covers write.req = true
  within : ∀ id write, state.writes.lookup id = some write ->
    write.req = state.torrent.reqIndex write.index write.start /\
      write.start % blockSize + write.length <= blockSize

theorem reqIndex_congr {before after : Torrent} (info : after.info = before.info)
    (piece offset : Nat) : after.reqIndex piece offset = before.reqIndex piece offset := by
  rw [reqIndex, reqIndex, pieceLength, pieceLength, info]

/-- The torrent loses received bits and nothing else that concerns writes. -/
structure Fewer (before after : Torrent) : Prop where
  info : after.info = before.info
  writing : after.blocks.writing = before.blocks.writing
  dirty : ∀ req, after.dirtyChunks.contains req = true -> before.dirtyChunks.contains req = true

theorem Fewer.clean {before after : Torrent} (fewer : Fewer before after) {req : Nat}
    (clean : before.dirtyChunks.contains req = false) : after.dirtyChunks.contains req = false := by
  rw [Bool.eq_false_iff] at clean ⊢
  exact fun set => clean (fewer.dirty req set)

variable {state after : BlockWriters}
variable {id : Nat} {write : BlockWrite} {torrent : Torrent} {next : Option WriteStage}

theorem lookup_put {other : Nat} {found : BlockWrite}
    (isFound : (state.put id write torrent next).writes.lookup other = some found) :
    (other ≠ id /\ state.writes.lookup other = some found) \/
      (other = id /\ Exists fun stage => next = some stage /\ found = { write with stage := stage }) := by
  cases next with
  | none =>
    have looked : (state.writes.erase id).lookup other = some found := isFound
    rw [FiniteMap.lookup_erase_eq] at looked
    split at looked
    · cases looked
    rename_i different
    exact .inl ⟨fun same => different same.symm, looked⟩
  | some stage =>
    have looked : (state.writes.insert id { write with stage := stage }).lookup other = some found := isFound
    rw [FiniteMap.lookup_insert_eq] at looked
    split at looked
    · rename_i same
      cases looked
      exact .inr ⟨same.symm, stage, rfl, rfl⟩
    · rename_i different
      exact .inl ⟨fun same => different same.symm, looked⟩

/-- What the step of one write has to keep for the others, and to bring about
for itself. -/
structure Turn (state : BlockWriters) (id : Nat) (write : BlockWrite) (torrent : Torrent)
    (next : Option WriteStage) : Prop where
  info : torrent.info = state.torrent.info
  covers : ∀ req, torrent.blocks.writing.covers req = state.torrent.blocks.writing.covers req
  others : ∀ other rival, other ≠ id -> state.writes.lookup other = some rival ->
    rival.stage.holds = true -> torrent.blocks.writing.contains rival.req = true
  othersClean : ∀ other rival, other ≠ id -> state.writes.lookup other = some rival ->
    rival.stage = .storing ∨ rival.stage = .marking ->
    torrent.dirtyChunks.contains rival.req = false
  reserved : ∀ stage, next = some stage -> stage.holds = true ->
    torrent.blocks.writing.contains write.req = true /\
      ∀ other rival, other ≠ id -> state.writes.lookup other = some rival ->
        rival.stage.holds = true -> rival.req ≠ write.req
  clean : ∀ stage, next = some stage -> stage = .storing ∨ stage = .marking ->
    torrent.dirtyChunks.contains write.req = false

theorem Exclusive.turn (exclusive : Exclusive state) (isWrite : state.writes.lookup id = some write)
    (turn : Turn state id write torrent next) : Exclusive (state.put id write torrent next) := by
  have sameTorrent : (state.put id write torrent next).torrent = torrent := by cases next <;> rfl
  refine ⟨?_, ?_, ?_, ?_, ?_⟩
  · intro other found isFound holds
    rw [sameTorrent]
    rcases lookup_put isFound with ⟨different, before⟩ | ⟨_, stage, isNext, rfl⟩
    · exact turn.others other found different before holds
    · exact (turn.reserved stage isNext holds).1
  · intro first second one two isOne isTwo oneHolds twoHolds sameReq
    rcases lookup_put isOne with ⟨oneOther, oneBefore⟩ | ⟨oneSame, stage, isNext, rfl⟩
    · rcases lookup_put isTwo with ⟨twoOther, twoBefore⟩ | ⟨twoSame, stage, isNext, rfl⟩
      · exact exclusive.single first second one two oneBefore twoBefore oneHolds twoHolds sameReq
      exact absurd sameReq ((turn.reserved stage isNext twoHolds).2 first one oneOther oneBefore oneHolds)
    · rcases lookup_put isTwo with ⟨twoOther, twoBefore⟩ | ⟨twoSame, _⟩
      · exact absurd sameReq.symm
          ((turn.reserved stage isNext oneHolds).2 second two twoOther twoBefore twoHolds)
      · rw [oneSame, twoSame]
  · intro other found isFound stages
    rw [sameTorrent]
    rcases lookup_put isFound with ⟨different, before⟩ | ⟨_, stage, isNext, rfl⟩
    · exact turn.othersClean other found different before stages
    · exact turn.clean stage isNext stages
  · intro other found isFound
    rw [sameTorrent, turn.covers]
    rcases lookup_put isFound with ⟨_, before⟩ | ⟨_, stage, _, rfl⟩
    · exact exclusive.covered other found before
    · exact exclusive.covered id write isWrite
  · intro other found isFound
    rw [sameTorrent, reqIndex_congr turn.info]
    rcases lookup_put isFound with ⟨_, before⟩ | ⟨_, stage, _, rfl⟩
    · exact exclusive.within other found before
    · exact exclusive.within id write isWrite

/-- A step that takes no reservation and sets no received bit. -/
theorem Exclusive.turn_fewer (exclusive : Exclusive state)
    (isWrite : state.writes.lookup id = some write) (fewer : Fewer state.torrent torrent)
    (held : ∀ stage, next = some stage -> stage.holds = true -> write.stage.holds = true)
    (clean : ∀ stage, next = some stage -> stage = .storing \/ stage = .marking ->
      state.torrent.dirtyChunks.contains write.req = false) : Turn state id write torrent next where
  info := fewer.info
  covers := fun req => by rw [fewer.writing]
  others := fun other rival _ isRival holds => by
    rw [fewer.writing]
    exact exclusive.reserved other rival isRival holds
  othersClean := fun other rival _ isRival stages => fewer.clean (exclusive.clean other rival isRival stages)
  reserved := fun stage isNext holds => by
    have before := held stage isNext holds
    refine ⟨?_, fun other rival different isRival rivalHolds same => ?_⟩
    · rw [fewer.writing]
      exact exclusive.reserved id write isWrite before
    · exact different (exclusive.single other id rival write isRival isWrite rivalHolds before same)
  clean := fun stage isNext stages => fewer.clean (clean stage isNext stages)

theorem Fewer.refl (torrent : Torrent) : Fewer torrent torrent :=
  ⟨rfl, rfl, fun _ => id⟩

theorem Fewer.modifyPiece (torrent : Torrent) (piece : Nat) (change : PieceEntry -> PieceEntry) :
    Fewer torrent (torrent.modifyPiece piece change) :=
  ⟨rfl, rfl, fun _ => id⟩

section
variable (exclusive : Exclusive state)
include exclusive

section
variable (isWrite : state.writes.lookup id = some write)
include isWrite

theorem Exclusive.turn_reserve :
    let begun := state.torrent.blocks.beginWrite write.req
    Turn state id write (state.torrent.withBlocks begun.2) (if begun.1 then some .again else none) := by
  intro begun
  have table : (state.torrent.withBlocks begun.2).blocks.writing =
      state.torrent.blocks.writing.insert write.req := by
    show (state.torrent.blocks.beginWrite write.req).2.writing = _
    rw [BlockTable.beginWrite, insertNew_eq]
  have won : begun.1 = !state.torrent.blocks.writing.contains write.req := by
    show (state.torrent.blocks.beginWrite write.req).1 = _
    rw [BlockTable.beginWrite, insertNew_eq]
  refine ⟨rfl, ?_, ?_, ?_, ?_, ?_⟩
  · intro req
    rw [table, covers_insert]
  · intro other rival _ isRival holds
    rw [table, contains_insert, exclusive.reserved other rival isRival holds, Bool.true_or]
  · intro other rival _ isRival stages
    exact exclusive.clean other rival isRival stages
  · intro stage isNext _
    rw [won] at isNext
    split at isNext
    · rename_i free
      rw [Bool.not_eq_true'] at free
      refine ⟨?_, fun other rival _ isRival holds same => ?_⟩
      · rw [table, contains_insert, exclusive.covered id write isWrite, beq_self_eq_true,
          Bool.and_self, Bool.or_true]
      · have held := exclusive.reserved other rival isRival holds
        rw [same, free] at held
        cases held
    · cases isNext
  · intro stage isNext stages
    split at isNext
    · cases isNext
      rcases stages with impossible | impossible <;> cases impossible
    · cases isNext

theorem Exclusive.turn_marking (isMarking : write.stage = .marking) : Turn state id write
      { state.torrent with dirtyChunks := state.torrent.dirtyChunks.insert write.req }
      (some .noting) := by
  have holds : write.stage.holds = true := by
    rw [isMarking]
    rfl
  refine ⟨rfl, fun _ => rfl, ?_, ?_, ?_, ?_⟩
  · intro other rival _ isRival rivalHolds
    exact exclusive.reserved other rival isRival rivalHolds
  · intro other rival different isRival stages
    have rivalHolds : rival.stage.holds = true := by
      rcases stages with isStage | isStage <;> rw [isStage] <;> rfl
    have apart : (write.req == rival.req) = false := by
      rw [beq_eq_false_iff_ne]
      intro same
      exact different (exclusive.single id other write rival isWrite isRival holds rivalHolds same).symm
    rw [contains_insert, exclusive.clean other rival isRival stages, apart]
    rfl
  · intro stage isNext _
    refine ⟨exclusive.reserved id write isWrite holds,
      fun other rival different isRival rivalHolds same => ?_⟩
    exact different (exclusive.single other id rival write isRival isWrite rivalHolds holds same)
  · intro stage isNext stages
    cases isNext
    rcases stages with impossible | impossible <;> cases impossible

/-- The reservation goes back. -/
theorem Exclusive.turn_ending (isEnding : write.stage = .ending) : Turn state id write
    (state.torrent.withBlocks (state.torrent.blocks.endWrite write.req)) none := by
  have holds : write.stage.holds = true := by
    rw [isEnding]
    rfl
  refine ⟨rfl, ?_, ?_, ?_, ?_, ?_⟩
  · intro req
    exact covers_remove _ _ _
  · intro other rival different isRival rivalHolds
    show (state.torrent.blocks.writing.remove write.req).contains rival.req = true
    rw [contains_remove, exclusive.reserved other rival isRival rivalHolds, Bool.true_and, bne_iff_ne]
    intro same
    exact different (exclusive.single id other write rival isWrite isRival holds rivalHolds same).symm
  · intro other rival _ isRival stages
    exact exclusive.clean other rival isRival stages
  · nofun
  · nofun

theorem Exclusive.advance (fine : Bool) : Turn state id write (write.advance state.torrent fine).1
    (write.advance state.torrent fine).2 := by
  unfold BlockWrite.advance
  cases isStage : write.stage with
  | entry | received =>
    refine exclusive.turn_fewer isWrite (Fewer.refl _) ?_ ?_
    · intro stage isNext holds
      dsimp only at isNext
      split at isNext
      · cases isNext
      cases isNext
      cases holds
    · intro stage isNext stages
      dsimp only at isNext
      split at isNext
      · cases isNext
      cases isNext
      rcases stages with impossible | impossible <;> cases impossible
  | reserve => exact exclusive.turn_reserve isWrite
  | again =>
    refine exclusive.turn_fewer isWrite (Fewer.refl _) ?_ ?_
    · intro _ _ _
      rw [isStage]
      rfl
    · intro stage isNext stages
      cases isNext
      split at stages
      · rcases stages with impossible | impossible <;> cases impossible
      rename_i clean
      exact Bool.eq_false_iff.mpr clean
  | storing =>
    refine exclusive.turn_fewer isWrite (Fewer.refl _) ?_ ?_
    · intro _ _ _
      rw [isStage]
      rfl
    · intro _ _ _
      exact exclusive.clean id write isWrite (Or.inl isStage)
  | marking => exact exclusive.turn_marking isWrite isStage
  | noting =>
    refine exclusive.turn_fewer isWrite ?_ ?_ ?_
    · dsimp only
      split
      · exact Fewer.modifyPiece _ _ _
      · exact Fewer.refl _
    · intro _ _ _
      rw [isStage]
      rfl
    · intro stage isNext stages
      cases isNext
      rcases stages with impossible | impossible <;> cases impossible
  | ending => exact exclusive.turn_ending isWrite isStage

end

/-- A change of the torrent that takes received bits at most. -/
theorem Exclusive.fewer (fewer : Fewer state.torrent torrent) :
    Exclusive { state with torrent := torrent } := by
  refine ⟨?_, exclusive.single, ?_, ?_, ?_⟩
  · intro id write isWrite holds
    rw [fewer.writing]
    exact exclusive.reserved id write isWrite holds
  · intro id write isWrite stages
    exact fewer.clean (exclusive.clean id write isWrite stages)
  · intro id write isWrite
    rw [fewer.writing]
    exact exclusive.covered id write isWrite
  · intro id write isWrite
    rw [reqIndex_congr fewer.info]
    exact exclusive.within id write isWrite

end

theorem fewer_removeDirtyRange (torrent : Torrent) (piece : Nat) :
    Fewer torrent (torrent.removeDirtyRange piece) := by
  refine ⟨rfl, rfl, fun req set => ?_⟩
  have kept : (torrent.dirtyChunks.removeRange (torrent.pieceRange piece).1
    (torrent.pieceRange piece).2).contains req = true := set
  rw [contains_removeRange, Bool.and_eq_true] at kept
  exact kept.1

/-! ## Runs -/

/-- The data of a message lies in the block it is taken for, and the tables
have a bit for the block. -/
def InBlock (state : BlockWriters) (label : Label) : Prop :=
  match label with
  | .deliver _ index start length => start % blockSize + length <= blockSize /\
      state.torrent.blocks.writing.covers (state.torrent.reqIndex index start) = true
  | .run _ _ | .clear _ | .edit _ _ => True

theorem Exclusive.step (exclusive : Exclusive state) {label : Label} (inBlock : InBlock state label)
    (moved : BlockWriters.step state label = some after) : Exclusive after := by
  cases label with
  | deliver id index start length =>
    simp only [BlockWriters.step] at moved
    split at moved
    · cases moved
    cases moved
    -- The new write has no reservation, so only its own data matter.
    have shape : ∀ {other : Nat} {found : BlockWrite},
        (state.writes.insert id (.ofMessage state.torrent index start length)).lookup other = some found ->
        found = .ofMessage state.torrent index start length \/ state.writes.lookup other = some found := by
      intro other found isFound
      rw [FiniteMap.lookup_insert_eq] at isFound
      split at isFound
      · exact .inl (Option.some.inj isFound).symm
      · exact .inr isFound
    refine ⟨?_, ?_, ?_, ?_, ?_⟩
    · intro other found isFound holds
      rcases shape isFound with rfl | before
      · cases holds
      · exact exclusive.reserved other found before holds
    · intro first second one two isOne isTwo oneHolds twoHolds same
      rcases shape isOne with rfl | oneBefore
      · cases oneHolds
      rcases shape isTwo with rfl | twoBefore
      · cases twoHolds
      exact exclusive.single first second one two oneBefore twoBefore oneHolds twoHolds same
    · intro other found isFound stages
      rcases shape isFound with rfl | before
      · rcases stages with impossible | impossible <;> cases impossible
      · exact exclusive.clean other found before stages
    · intro other found isFound
      rcases shape isFound with rfl | before
      · exact inBlock.2
      · exact exclusive.covered other found before
    · intro other found isFound
      rcases shape isFound with rfl | before
      · exact ⟨rfl, inBlock.1⟩
      · exact exclusive.within other found before
  | run id fine =>
    rcases Option.map_eq_some_iff.mp moved with ⟨_, isWrite, rfl⟩
    exact exclusive.turn isWrite (exclusive.advance isWrite fine)
  | clear =>
    cases moved
    exact exclusive.fewer (fewer_removeDirtyRange _ _)
  | edit =>
    cases moved
    exact exclusive.fewer (Fewer.modifyPiece _ _ _)

theorem Exclusive.reqIndex_eq (exclusive : Exclusive state) (isWrite : state.writes.lookup id = some write)
    {offset : Nat} (first : write.start <= offset) (last : offset < write.start + write.length) :
    state.torrent.reqIndex write.index offset = write.req := by
  rcases exclusive.within id write isWrite with ⟨isReq, inside⟩
  have sameBlock : offset / blockSize = write.start / blockSize := by
    rw [blockSize] at inside ⊢
    omega
  rw [isReq, reqIndex, reqIndex, reqIndexFromPieceAndOffset, reqIndexFromPieceAndOffset, sameBlock]

/-- In every run in which the data of each message lies in the block it is taken
for, a block is stored by one connection at a time, and no byte that is being
stored belongs to a block whose received bit is set. -/
theorem stored_by_one {labels : List Label} (run : machine.RunsTo InBlock labels state) :
    (forall id other write rival, state.writes.lookup id = some write ->
      state.writes.lookup other = some rival -> write.stage = .storing ->
      rival.stage = .storing -> write.req = rival.req -> id = other) ∧
    forall id write, state.writes.lookup id = some write -> write.stage = .storing ->
      state.torrent.dirtyChunks.contains write.req = false ∧
      forall offset, write.start <= offset -> offset < write.start + write.length ->
        state.torrent.dirtyChunks.contains (state.torrent.reqIndex write.index offset) = false := by
  have exclusive : Exclusive state := by
    refine run.stateInvariant ?_ (fun _ _ _ exclusive inBlock moved => exclusive.step inBlock moved)
    rintro first ⟨info, complete, downloadAll, live, rfl⟩
    refine ⟨?_, ?_, ?_, ?_, ?_⟩
    · nofun
    · nofun
    · nofun
    · nofun
    · nofun
  refine ⟨?_, ?_⟩
  · intro id other write rival isWrite isRival storing rivalStoring same
    refine exclusive.single id other write rival isWrite isRival ?_ ?_ same
    · rw [storing]
      rfl
    · rw [rivalStoring]
      rfl
  · intro id write isWrite storing
    have clean := exclusive.clean id write isWrite (Or.inl storing)
    refine ⟨clean, fun offset first last => ?_⟩
    rw [exclusive.reqIndex_eq isWrite first last]
    exact clean

instance (state : BlockWriters) (label : Label) : Decidable (InBlock state label) :=
  match label with
  | .deliver _ _ _ _ => inferInstanceAs (Decidable (_ /\ _))
  | .run _ _ | .clear _ | .edit _ _ => isTrue trivial

def twoBlocks : BlockWriters :=
  { torrent := ({} : Torrent).setInfo { pieceLength := 32768, totalLength := 32768 }
      (fun _ => false) true [] }

theorem twoBlocks_init : machine.init twoBlocks :=
  ⟨_, _, _, _, rfl⟩

/-- Two connections bring the first block.  The first of them is stored. -/
def bothDeliver : List Label :=
  [.deliver 0 0 0 16384, .deliver 1 0 0 16384, .run 0 true, .run 1 true, .run 0 true, .run 1 true,
    .run 0 true, .run 1 true, .run 0 true]

theorem stored_by_one_bothDeliver :
    let reached := (machine.exec twoBlocks bothDeliver).getD twoBlocks
    (reached.writes.lookup 0).map BlockWrite.stage = some .storing ∧ reached.writes.lookup 1 = none ∧
      forall id write, reached.writes.lookup id = some write -> write.stage = .storing ->
        reached.torrent.dirtyChunks.contains write.req = false := by
  have run : machine.RunsTo InBlock bothDeliver ((machine.exec twoBlocks bothDeliver).getD twoBlocks) :=
    .of_exec twoBlocks_init (by decide +kernel) rfl
  refine ⟨by decide +kernel, by decide +kernel, fun id write isWrite storing => ?_⟩
  exact ((stored_by_one run).2 id write isWrite storing).1

/-- The second block is received.  Then a connection that was asked for the
first block answers with a block of data from the second byte on. -/
def shiftedAnswer : List Label :=
  [.deliver 0 0 16384 16384, .run 0 true, .run 0 true, .run 0 true, .run 0 true, .run 0 true,
    .run 0 true, .run 0 true, .run 0 true,
    .deliver 1 0 1 16384, .run 1 true, .run 1 true, .run 1 true, .run 1 true]

/-- The answer is taken for the first block and overwrites the first byte of
the second one. -/
theorem overwrites_received_block :
    let reached := (machine.exec twoBlocks shiftedAnswer).getD twoBlocks
    machine.RunsTo Machine.always shiftedAnswer reached ∧
      Exists fun write => reached.writes.lookup 1 = some write ∧ write.stage = .storing ∧
        write.req = 0 ∧ write.start <= 16384 ∧ 16384 < write.start + write.length ∧
        reached.torrent.chunkStorageError write.index write.start write.length = none ∧
        reached.torrent.reqIndex write.index 16384 = 1 ∧
        reached.torrent.dirtyChunks.contains 1 = true := by
  refine ⟨.of_exec twoBlocks_init (machine.permits_always _ _) rfl,
    { req := 0, index := 0, start := 1, length := 16384, stage := .storing }, ?_⟩
  decide +kernel

end BlockWriters
end TorrentPlayer.Core
