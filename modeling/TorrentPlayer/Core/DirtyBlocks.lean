import TorrentPlayer.Core.Reader
import TorrentPlayer.Core.Writes

namespace TorrentPlayer.Core

open Library ChunkBits Torrent Session Wire List Option

/-!
# A received bit and the bytes of its block

A block's received bit is set when a write that was reserved for the block ends
well.  Which bytes were written is up to the peer: the message names a position
inside the piece and brings any number of bytes, and the handler only looks at
the block which contains the position.

A ledger records, next to the swarm, which bytes of a block were stored since
its bit was cleared.  As long as every block that a handler expects comes whole,
the ledger covers every block whose bit is set, and a reader is told of received
bytes only.
-/

/-- The swarm, and for every block the stored bytes of its piece, by their
position inside the piece, since the bit of the block was last cleared. -/
structure Ledger where
  swarm : Swarm := {}
  received : Nat -> Nat -> Bool := fun _ _ => false

namespace Ledger

def stores (swarm : Swarm) (req byte : Nat) : Event -> Bool
  | .pieceStore i storageOk =>
    (swarm.conns[i]?.bind Conn.writing).any (fun write =>
      storageOk && (swarm.torrent.chunkStorageError write.index write.start write.data.length).isNone &&
        (swarm.torrent.blockCoord req).piece == write.index &&
        decide (write.start <= byte) && decide (byte < write.start + write.data.length))
  | _ => false

/-- A step clears the bit of a block. -/
def clears (before after : Swarm) (req : Nat) : Bool :=
  before.torrent.dirtyChunks.contains req && !after.torrent.dirtyChunks.contains req

def note (ledger : Ledger) (event : Event) (after : Swarm) (req byte : Nat) : Bool :=
  (ledger.received req byte && !clears ledger.swarm after req) || stores ledger.swarm req byte event

def advance (ledger : Ledger) (event : Event) (after : Swarm) : Ledger where
  swarm := after
  received := ledger.note event after

def machine : Machine Ledger Event where
  init := fun ledger => ledger = {}
  step := fun ledger event => (ledger.swarm.step event).map (ledger.advance event)

def Spans (torrent : Torrent) (req index start length : Nat) : Prop :=
  (torrent.blockCoord req).piece = index /\ start <= (torrent.blockCoord req).offset /\
    (torrent.blockCoord req).offset + (torrent.blockCoord req).length <= start + length

instance (torrent : Torrent) (req index start length : Nat) :
    Decidable (Spans torrent req index start length) :=
  inferInstanceAs (Decidable (_ /\ _ /\ _))

/-- A block message whose handler expects the block, with a range that can be
stored, brings the whole block. -/
def WholeBlocks (ledger : Ledger) : Event -> Prop
  | .pieceBegin i _ index start data =>
    ∀ conn ∈ ledger.swarm.conns[i]?, expects conn (reqIndexFromPieceAndOffset index.toNat start.toNat
        ledger.swarm.torrent.pieceLength) = true ->
      ledger.swarm.torrent.chunkStorageError index.toNat start.toNat data.length = none ->
      Spans ledger.swarm.torrent (reqIndexFromPieceAndOffset index.toNat start.toNat
        ledger.swarm.torrent.pieceLength) index.toNat start.toNat data.length
  | _ => True

def Complete (ledger : Ledger) (req : Nat) : Prop :=
  ∀ byte, (ledger.swarm.torrent.blockCoord req).offset <= byte ->
    byte < (ledger.swarm.torrent.blockCoord req).offset + (ledger.swarm.torrent.blockCoord req).length ->
    ledger.received req byte = true

structure Storing (ledger : Ledger) (write : ChunkWrite) : Prop where
  /-- The block is reserved, unless the block sets have no room for it. -/
  reserved : ledger.swarm.torrent.blocks.writing.covers write.req = true ->
    ledger.swarm.torrent.blocks.writing.contains write.req = true
  fresh : ledger.swarm.torrent.dirtyChunks.contains write.req = false
  whole : ledger.swarm.torrent.chunkStorageError write.index write.start write.data.length = none ->
    Spans ledger.swarm.torrent write.req write.index write.start write.data.length
  complete : write.stored = some true -> ledger.Complete write.req

structure Recorded (ledger : Ledger) : Prop where
  size : ledger.swarm.torrent.dirtyChunks.wordCount = ledger.swarm.torrent.blocks.writing.wordCount
  unsized : ledger.swarm.torrent.info = none -> ledger.swarm.torrent.dirtyChunks.wordCount = none
  unasked : ledger.swarm.torrent.info = none -> ∀ conn ∈ ledger.swarm.conns,
    conn.Unasked /\ conn.writing = none
  dirty : ∀ req, ledger.swarm.torrent.dirtyChunks.contains req = true -> ledger.Complete req
  storing : ∀ conn ∈ ledger.swarm.conns, ∀ write, conn.writing = some write -> ledger.Storing write
  /-- No two handlers store one block, unless the block sets have no room for it. -/
  exclusive : ∀ (i j : Nat) (first second : Conn) (one other : ChunkWrite),
    ledger.swarm.conns[i]? = some first -> ledger.swarm.conns[j]? = some second ->
    first.writing = some one -> second.writing = some other -> one.req = other.req ->
    ledger.swarm.torrent.blocks.writing.covers one.req = true -> i = j

theorem recorded_init : Recorded {} where
  size := rfl
  unsized := fun _ => rfl
  unasked := fun _ _ member => absurd member not_mem_nil
  dirty := by
    intro req set
    cases set
  storing := fun _ member => absurd member not_mem_nil
  exclusive := by
    intro i j first second one other found
    cases found

/-! ## Steps that store nothing -/

variable {before after : Torrent}

theorem blockCoord_congr (info : after.info = before.info) (req : Nat) :
    after.blockCoord req = before.blockCoord req := by
  rw [blockCoord, blockCoord, pieceLength, pieceLength, totalLength, totalLength, info]

theorem chunkStorageError_congr (info : after.info = before.info) (piece start length : Nat) :
    after.chunkStorageError piece start length = before.chunkStorageError piece start length := by
  rw [chunkStorageError, chunkStorageError, info]

variable {req i : Nat} {write : ChunkWrite} {swarm : Swarm} {conn acted : Conn} {torrent : Torrent}

theorem whole_congr (info : after.info = before.info)
    (whole : before.chunkStorageError write.index write.start write.data.length = none ->
      Spans before write.req write.index write.start write.data.length)
    (storable : after.chunkStorageError write.index write.start write.data.length = none) :
    Spans after write.req write.index write.start write.data.length := by
  rw [chunkStorageError_congr info] at storable
  rw [Spans, blockCoord_congr info]
  exact whole storable

/-- Every connection afterwards is a new one or stands for an earlier one, and
no two stand for the same. -/
structure Relocates (before after : Swarm) (place : Nat -> Nat) : Prop where
  injective : Function.Injective place
  origin : ∀ (j : Nat) (conn : Conn), after.conns[j]? = some conn -> (conn.Unasked /\ conn.writing = none) ∨
      Exists fun old => before.conns[place j]? = some old /\ conn.writing = old.writing /\
        (before.torrent.info = none -> old.Unasked -> conn.Unasked)

/-- A step that sets no bit, reserves nothing and stores nothing. -/
structure Quiet (before after : Ledger) : Prop where
  relocates : Exists fun place => Relocates before.swarm after.swarm place
  info : after.swarm.torrent.info = before.swarm.torrent.info
  reserved : after.swarm.torrent.blocks.writing = before.swarm.torrent.blocks.writing
  size : after.swarm.torrent.dirtyChunks.wordCount = before.swarm.torrent.dirtyChunks.wordCount
  fewer : ∀ req, after.swarm.torrent.dirtyChunks.contains req = true ->
    before.swarm.torrent.dirtyChunks.contains req = true
  received : ∀ req byte, before.received req byte = true ->
    clears before.swarm after.swarm req = false -> after.received req byte = true

namespace Quiet

variable {before after : Ledger}
variable (quiet : Quiet before after)
include quiet

theorem complete (kept : clears before.swarm after.swarm req = false)
    (complete : before.Complete req) : after.Complete req := by
  intro byte least most
  rw [blockCoord_congr quiet.info] at least most
  exact quiet.received req byte (complete byte least most) kept

theorem storing (storing : before.Storing write) : after.Storing write where
  reserved := by
    rw [quiet.reserved]
    exact storing.reserved
  fresh := by
    rw [<- Bool.not_eq_true]
    intro set
    have earlier := quiet.fewer _ set
    rw [storing.fresh] at earlier
    cases earlier
  whole := whole_congr quiet.info storing.whole
  complete := by
    intro stored
    apply quiet.complete _ (storing.complete stored)
    rw [clears, storing.fresh]
    rfl

theorem recorded (recorded : before.Recorded) : after.Recorded := by
  rcases quiet.relocates with ⟨place, relocates⟩
  -- A connection that is storing a block was storing it before.
  have origin : ∀ (j : Nat) (conn : Conn) (write : ChunkWrite),
      after.swarm.conns[j]? = some conn -> conn.writing = some write ->
      Exists fun old => before.swarm.conns[place j]? = some old /\ old.writing = some write := by
    intro j conn write found writing
    rcases relocates.origin j conn found with ⟨_, resting⟩ | ⟨old, at_place, same, _⟩
    · rw [resting] at writing
      cases writing
    · exact ⟨old, at_place, same.symm.trans writing⟩
  constructor
  · rw [quiet.size, quiet.reserved]
    exact recorded.size
  · rw [quiet.info, quiet.size]
    exact recorded.unsized
  · rw [quiet.info]
    intro unknown conn member
    rcases getElem?_of_mem member with ⟨j, found⟩
    rcases relocates.origin j conn found with new | ⟨old, at_place, same, unasked⟩
    · exact new
    have earlier := recorded.unasked unknown old (mem_of_getElem? at_place)
    exact ⟨unasked unknown earlier.1, same.trans earlier.2⟩
  · intro req set
    apply quiet.complete _ (recorded.dirty req (quiet.fewer req set))
    rw [clears, set, Bool.not_true, Bool.and_false]
  · intro conn member write writing
    rcases getElem?_of_mem member with ⟨j, found⟩
    rcases origin j conn write found writing with ⟨old, at_place, earlier⟩
    exact quiet.storing (recorded.storing old (mem_of_getElem? at_place) write earlier)
  · intro i j first second one other atFirst atSecond oneIs otherIs same covered
    rcases origin i first one atFirst oneIs with ⟨oldFirst, placeFirst, earlierOne⟩
    rcases origin j second other atSecond otherIs with ⟨oldSecond, placeSecond, earlierOther⟩
    rw [quiet.reserved] at covered
    exact relocates.injective (recorded.exclusive (place i) (place j) oldFirst oldSecond one other
      placeFirst placeSecond earlierOne earlierOther same covered)

end Quiet

variable {after : Swarm} {change : Conn -> Conn}

/-- The connections keep their places; the one at `i` was acting. -/
theorem relocates_set (found : swarm.conns[i]? = some conn)
    (conns : after.conns = swarm.conns.set i acted) (writing : acted.writing = conn.writing)
    (unasked : swarm.torrent.info = none -> conn.Unasked -> acted.Unasked) :
    Relocates swarm after id where
  injective := Function.injective_id
  origin := by
    intro j other at_j
    right
    rw [conns] at at_j
    by_cases here : i = j
    · subst here
      rw [getElem?_set_self (List.getElem?_eq_some_iff.mp found).1] at at_j
      cases at_j
      exact ⟨conn, found, writing, unasked⟩
    · rw [getElem?_set_ne here] at at_j
      exact ⟨other, at_j, rfl, fun _ => id⟩

theorem relocates_map (conns : after.conns = swarm.conns.map change)
    (same : ∀ conn, (change conn).writing = conn.writing /\
      (conn.Unasked -> (change conn).Unasked)) : Relocates swarm after id where
  injective := Function.injective_id
  origin := by
    intro j other at_j
    right
    rw [conns, getElem?_map, map_eq_some_iff] at at_j
    rcases at_j with ⟨old, found, rfl⟩
    exact ⟨old, found, (same old).1, fun _ => (same old).2⟩

theorem relocates_attach (conns : after.conns = swarm.conns ++ [conn])
    (new : conn.Unasked /\ conn.writing = none) : Relocates swarm after id where
  injective := Function.injective_id
  origin := by
    intro j other at_j
    rw [conns] at at_j
    by_cases old : j < swarm.conns.length
    · rw [getElem?_append_left old] at at_j
      exact .inr ⟨other, at_j, rfl, fun _ => id⟩
    · rw [getElem?_append_right (Nat.le_of_not_lt old)] at at_j
      rw [mem_singleton.mp (mem_of_getElem? at_j)]
      exact .inl new

theorem relocates_closed (conns : after.conns = (swarm.conns.eraseIdx i).map change)
    (same : ∀ conn, (change conn).writing = conn.writing /\ (conn.Unasked -> (change conn).Unasked)) :
    Relocates swarm after (fun j => if j < i then j else j + 1) where
  injective := by
    intro j k equal
    dsimp only at equal
    split at equal <;> split at equal <;> omega
  origin := by
    intro j other at_j
    right
    rw [conns, getElem?_map, map_eq_some_iff] at at_j
    rcases at_j with ⟨old, found, rfl⟩
    refine ⟨old, ?_, (same old).1, fun _ => (same old).2⟩
    rw [getElem?_eraseIdx] at found
    split at found
    next before => rw [if_pos before, found]
    next after => rw [if_neg after, found]

variable {ledger : Ledger} {event : Event}

theorem note_of_received {after : Swarm} {byte : Nat} (received : ledger.received req byte = true)
    (kept : clears ledger.swarm after req = false) : ledger.note event after req byte = true := by
  rw [note, received, kept]
  rfl

theorem clears_of_same {before after : Swarm}
    (same : after.torrent.dirtyChunks = before.torrent.dirtyChunks) : clears before after req = false := by
  rw [clears, same, Bool.and_not_self]

theorem Complete.advance {after : Swarm} (complete : ledger.Complete req)
    (info : after.torrent.info = ledger.swarm.torrent.info)
    (kept : clears ledger.swarm after req = false) : (ledger.advance event after).Complete req := by
  intro byte least most
  rw [Ledger.advance, blockCoord_congr info] at least most
  exact note_of_received (complete byte least most) kept

theorem quiet_of_keepsWrites {session : Session} (found : ledger.swarm.conns[i]? = some conn)
    (keeps : Session.KeepsWrites ⟨ledger.swarm.torrent, conn⟩ session)
    (event : Event) : Quiet ledger (ledger.advance event
      ⟨session.torrent, ledger.swarm.conns.set i session.conn⟩) where
  relocates := ⟨id, relocates_set found rfl keeps.writing keeps.unasked⟩
  __ := keeps
  size := congrArg wordCount keeps.dirtyChunks
  fewer := by
    intro req set
    rw [<- keeps.dirtyChunks]
    exact set
  received := fun _ _ received kept => note_of_received received kept

theorem quiet_of_torrent (info : torrent.info = ledger.swarm.torrent.info)
    (reserved : torrent.blocks.writing = ledger.swarm.torrent.blocks.writing)
    (size : torrent.dirtyChunks.wordCount = ledger.swarm.torrent.dirtyChunks.wordCount)
    (fewer : ∀ req, torrent.dirtyChunks.contains req = true ->
      ledger.swarm.torrent.dirtyChunks.contains req = true) {conns : List Conn}
    (relocates : Exists fun place => Relocates ledger.swarm { torrent, conns } place)
    (event : Event) : Quiet ledger (ledger.advance event { torrent, conns }) :=
  ⟨relocates, info, reserved, size, fewer, fun _ _ received kept => note_of_received received kept⟩

/-! ## A block is reserved, stored, and done -/

theorem beginChunkWrite_won (won : (torrent.beginChunkWrite req).1 = true) :
    torrent.dirtyChunks.contains req = false /\ torrent.blocks.writing.contains req = false /\
      (torrent.beginChunkWrite req).2 = torrent.withBlocks
        { torrent.blocks with writing := torrent.blocks.writing.insert req } := by
  rw [beginChunkWrite] at won ⊢
  split at won
  · cases won
  rename_i unsettled
  split at won
  · cases won
  rename_i fresh
  rw [if_neg unsettled, if_neg fresh]
  rw [BlockTable.beginWrite, insertNew_eq] at won ⊢
  refine ⟨Bool.eq_false_iff.mpr fresh, ?_, rfl⟩
  rw [<- Bool.not_eq_true']
  exact won

theorem startWrite_spec (session : Session) (write : ChunkWrite)
    (won : ((session.receiveChunk write.req).torrent.beginChunkWrite write.req).1 = true) :
    session.torrent.dirtyChunks.contains write.req = false /\
    session.torrent.blocks.writing.contains write.req = false /\
    Exists fun torrent => ((session.receiveChunk write.req).torrent.beginChunkWrite write.req).2 =
        torrent /\ torrent.info = session.torrent.info /\
      torrent.dirtyChunks = session.torrent.dirtyChunks /\
      torrent.blocks.writing = session.torrent.blocks.writing.insert write.req := by
  have only := onlyRequests_receiveChunk session write.req
  have dirtyChunks : (session.receiveChunk write.req).torrent.dirtyChunks = session.torrent.dirtyChunks := by
    rw [only.frame]
  rcases beginChunkWrite_won won with ⟨fresh, free, equal⟩
  rw [dirtyChunks] at fresh
  rw [only.writing] at free
  refine ⟨fresh, free, _, equal, only.info, dirtyChunks, ?_⟩
  exact congrArg (insert . write.req) only.writing

theorem getElem?_set_cases {conns : List Conn} {k : Nat} {other : Conn}
    (found : (conns.set i acted)[k]? = some other) :
    (i = k /\ other = acted) \/ (i ≠ k /\ conns[k]? = some other) := by
  by_cases here : i = k
  · subst here
    rw [getElem?_set] at found
    simp only [if_true] at found
    split at found
    · exact .inl ⟨rfl, (Option.some.inj found).symm⟩
    · cases found
  · rw [getElem?_set_ne here] at found
    exact .inr ⟨here, found⟩

theorem endWrite_writes (session : Session) (turn : Turn) (write : ChunkWrite) (ok : Bool) :
    (session.endWrite turn write ok).torrent.dirtyChunks =
      (if ok then session.torrent.dirtyChunks.insert write.req else session.torrent.dirtyChunks) /\
    (session.endWrite turn write ok).torrent.blocks.writing =
      session.torrent.blocks.writing.remove write.req := by
  rw [endWrite_frame]
  cases ok with
  | true => exact ⟨rfl, BlockTable.writing_clear ..⟩
  | false => exact ⟨rfl, BlockTable.writing_release ..⟩

section
variable (recorded : ledger.Recorded) (found : ledger.swarm.conns[i]? = some conn)
include recorded found

theorem recorded_reserved (expected : expects conn write.req = true) (pending : write.stored = none)
    (whole : ledger.swarm.torrent.chunkStorageError write.index write.start write.data.length =
      none -> Spans ledger.swarm.torrent write.req write.index write.start write.data.length)
    (fresh : ledger.swarm.torrent.dirtyChunks.contains write.req = false)
    (free : ledger.swarm.torrent.blocks.writing.contains write.req = false)
    (info : torrent.info = ledger.swarm.torrent.info)
    (dirtyChunks : torrent.dirtyChunks = ledger.swarm.torrent.dirtyChunks)
    (reserved : torrent.blocks.writing = ledger.swarm.torrent.blocks.writing.insert write.req)
    (writing : acted.writing = some write) (event : Event) : (ledger.advance event
      ⟨torrent, ledger.swarm.conns.set i acted⟩).Recorded := by
  have complete : ∀ req, ledger.Complete req -> (ledger.advance event
      ⟨torrent, ledger.swarm.conns.set i acted⟩).Complete req :=
    fun req complete => complete.advance info (clears_of_same dirtyChunks)
  constructor
  · rw [advance]
    rw [dirtyChunks, reserved, wordCount_insert]
    exact recorded.size
  · rw [advance]
    rw [info, dirtyChunks]
    exact recorded.unsized
  · intro unknown
    -- Before the info is known the handler expects nothing.
    have unasked := (recorded.unasked (info.symm.trans unknown) conn (mem_of_getElem? found)).1
    rw [expects, unasked.outstanding, AList.lookup_eq_none.mpr (unasked.expected write.req)] at expected
    cases expected
  · intro req set
    rw [advance, dirtyChunks] at set
    exact complete req (recorded.dirty req set)
  · intro other member later laterIs
    rcases mem_or_eq_of_mem_set member with old | new
    · have storing := recorded.storing other old later laterIs
      constructor
      · rw [advance]
        rw [reserved, covers_insert]
        intro covered
        rw [contains_insert, storing.reserved covered]
        rfl
      · rw [advance]
        rw [dirtyChunks]
        exact storing.fresh
      · exact whole_congr info storing.whole
      · exact fun stored => complete _ (storing.complete stored)
    · subst new
      rw [writing] at laterIs
      cases laterIs
      constructor
      · rw [advance]
        rw [reserved, covers_insert]
        intro covered
        rw [contains_insert, covered]
        simp
      · rw [advance]
        rw [dirtyChunks]
        exact fresh
      · exact whole_congr info whole
      · intro stored
        rw [pending] at stored
        cases stored
  · intro j k first second one other atFirst atSecond oneIs otherIs same covered
    rw [advance] at atFirst atSecond covered
    rw [reserved, covers_insert] at covered
    -- Nobody else was storing the block, for it was not reserved.
    have alone : ∀ (l : Nat) (old : Conn) (earlier : ChunkWrite),
        ledger.swarm.conns[l]? = some old -> old.writing = some earlier ->
        earlier.req = write.req -> ledger.swarm.torrent.blocks.writing.covers write.req = true ->
        False := by
      intro l old earlier at_l earlierIs sameReq room
      have storing := recorded.storing old (mem_of_getElem? at_l) earlier earlierIs
      have held := storing.reserved (sameReq ▸ room)
      rw [sameReq, free] at held
      cases held
    rcases getElem?_set_cases atFirst with ⟨rfl, rfl⟩ | ⟨_, oldFirst⟩
    · rcases getElem?_set_cases atSecond with ⟨here, _⟩ | ⟨_, oldSecond⟩
      · exact here
      rw [writing] at oneIs
      cases oneIs
      exact (alone k second other oldSecond otherIs same.symm covered).elim
    · rcases getElem?_set_cases atSecond with ⟨rfl, rfl⟩ | ⟨_, oldSecond⟩
      · rw [writing] at otherIs
        cases otherIs
        exact (alone j first one oldFirst oneIs same (same ▸ covered)).elim
      · exact recorded.exclusive j k first second one other oldFirst oldSecond oneIs otherIs same covered

theorem recorded_stored (writing : conn.writing = some write) (storageOk : Bool) :
    (ledger.advance (.pieceStore i storageOk) {
        torrent := ledger.swarm.torrent
        conns := ledger.swarm.conns.set i (handlePieceStore
          ⟨ledger.swarm.torrent, conn⟩ write storageOk).conn }).Recorded := by
  have old := recorded.storing conn (mem_of_getElem? found) write writing
  -- Whatever a connection is storing afterwards, it was storing the same block.
  have origin : ∀ (k : Nat) (other : Conn) (later : ChunkWrite),
      (ledger.swarm.conns.set i (handlePieceStore ⟨ledger.swarm.torrent, conn⟩ write storageOk).conn)[k]? =
        some other -> other.writing = some later ->
      Exists fun earlier => Exists fun before => ledger.swarm.conns[k]? = some before /\
        before.writing = some earlier /\ earlier.req = later.req := by
    intro k other later at_k laterIs
    rcases getElem?_set_cases at_k with ⟨rfl, rfl⟩ | ⟨_, same⟩
    · cases laterIs
      exact ⟨write, conn, found, writing, rfl⟩
    · exact ⟨later, other, same, laterIs, rfl⟩
  refine ⟨recorded.size, recorded.unsized, ?_, ?_, ?_, ?_⟩
  · intro unknown
    have resting := (recorded.unasked unknown conn (mem_of_getElem? found)).2
    rw [writing] at resting
    cases resting
  · exact fun req set => (recorded.dirty req set).advance rfl (clears_of_same rfl)
  · intro other member later laterIs
    rcases mem_or_eq_of_mem_set member with older | new
    · have storing := recorded.storing other older later laterIs
      exact ⟨storing.reserved, storing.fresh, storing.whole,
        fun stored => (storing.complete stored).advance rfl (clears_of_same rfl)⟩
    subst new
    cases laterIs
    refine ⟨old.reserved, old.fresh, old.whole, fun stored => ?_⟩
    have both := Bool.and_eq_true_iff.mp (Option.some.inj stored)
    have storable := isNone_iff_eq_none.mp both.2
    rcases old.whole storable with ⟨piece, start, finish⟩
    intro byte least most
    rw [advance] at least most
    dsimp only at least most
    have written : stores ledger.swarm write.req byte (.pieceStore i storageOk) = true := by
      rw [stores, found, bind_some, writing, any_some, both.1, both.2, piece]
      simp only [beq_self_eq_true, Bool.true_and, Bool.and_eq_true, decide_eq_true_eq]
      exact ⟨by omega, by omega⟩
    show ledger.note _ _ write.req byte = true
    rw [note, written, Bool.or_true]
  · intro j k first second one other atFirst atSecond oneIs otherIs same covered
    rcases origin j first one atFirst oneIs with ⟨earlierOne, beforeFirst, placeOne, isOne, reqOne⟩
    rcases origin k second other atSecond otherIs with
      ⟨earlierOther, beforeSecond, placeOther, isOther, reqOther⟩
    apply recorded.exclusive j k beforeFirst beforeSecond earlierOne earlierOther placeOne
      placeOther isOne isOther
    · rw [reqOne, reqOther, same]
    · rw [reqOne]
      exact covered

theorem recorded_ended {ok : Bool} (writing : conn.writing = some write) (answered : write.stored = some ok)
    (info : torrent.info = ledger.swarm.torrent.info) (dirtyChunks : torrent.dirtyChunks =
      if ok then ledger.swarm.torrent.dirtyChunks.insert write.req
      else ledger.swarm.torrent.dirtyChunks)
    (reserved : torrent.blocks.writing = ledger.swarm.torrent.blocks.writing.remove write.req)
    (resting : acted.writing = none) (event : Event) : (ledger.advance event
      ⟨torrent, ledger.swarm.conns.set i acted⟩).Recorded := by
  have old := recorded.storing conn (mem_of_getElem? found) write writing
  have grows : ∀ req, ledger.swarm.torrent.dirtyChunks.contains req = true ->
      torrent.dirtyChunks.contains req = true := by
    intro req set
    rw [dirtyChunks]
    split
    · rw [contains_insert, set]
      rfl
    · exact set
  have set_cases : ∀ req, torrent.dirtyChunks.contains req = true ->
      ledger.swarm.torrent.dirtyChunks.contains req = true \/ (ok = true /\ req = write.req /\
          ledger.swarm.torrent.blocks.writing.covers req = true) := by
    intro req set
    rw [dirtyChunks] at set
    split at set
    next stored =>
      rw [contains_insert, Bool.or_eq_true, Bool.and_eq_true, beq_iff_eq,
        covers_of_wordCount recorded.size] at set
      exact set.imp_right fun here => ⟨stored, here.1.symm, here.2⟩
    · exact .inl set
  have complete : ∀ req, ledger.Complete req -> (ledger.advance event
      ⟨torrent, ledger.swarm.conns.set i acted⟩).Complete req := by
    intro req complete
    refine complete.advance info ?_
    rw [clears]
    cases set : ledger.swarm.torrent.dirtyChunks.contains req with
    | false => rfl
    | true => rw [grows req set, Bool.not_true, Bool.and_false]
  -- The other handlers store other blocks, as far as the block sets have room.
  have others : ∀ (k : Nat) (other : Conn) (later : ChunkWrite),
      (ledger.swarm.conns.set i acted)[k]? = some other -> other.writing = some later ->
      ledger.swarm.conns[k]? = some other /\
        (ledger.swarm.torrent.blocks.writing.covers later.req = true -> later.req ≠ write.req) := by
    intro k other later at_k laterIs
    rcases getElem?_set_cases at_k with ⟨rfl, rfl⟩ | ⟨apart, same⟩
    · rw [resting] at laterIs
      cases laterIs
    · refine ⟨same, fun covered sameReq => apart ?_⟩
      exact recorded.exclusive i k conn other write later found same writing laterIs sameReq.symm
        (sameReq ▸ covered)
  have known : torrent.info ≠ none := by
    intro unknown
    have none := (recorded.unasked (info.symm.trans unknown) conn (mem_of_getElem? found)).2
    rw [writing] at none
    cases none
  constructor
  · rw [advance, reserved, wordCount_remove, <- recorded.size, dirtyChunks]
    split
    · exact wordCount_insert ..
    · rfl
  · exact fun unknown => absurd unknown known
  · exact fun unknown => absurd unknown known
  · intro req set
    rcases set_cases req set with earlier | ⟨stored, rfl, _⟩
    · exact complete req (recorded.dirty req earlier)
    rw [stored] at answered
    exact complete write.req (old.complete answered)
  · intro other member later laterIs
    rcases getElem?_of_mem member with ⟨k, at_k⟩
    rcases others k other later at_k laterIs with ⟨same, different⟩
    have storing := recorded.storing other (mem_of_getElem? same) later laterIs
    constructor
    · rw [advance, reserved, covers_remove]
      intro covered
      rw [contains_remove, storing.reserved covered]
      simp [(different covered).symm]
    · rw [<- Bool.not_eq_true]
      intro set
      rcases set_cases later.req set with earlier | ⟨_, sameReq, covered⟩
      · rw [storing.fresh] at earlier
        cases earlier
      · exact different covered sameReq
    · exact whole_congr info storing.whole
    · exact fun stored => complete _ (storing.complete stored)
  · intro j k first second one other atFirst atSecond oneIs otherIs same covered
    rw [advance, reserved, covers_remove] at covered
    exact recorded.exclusive j k first second one other (others j first one atFirst oneIs).1
      (others k second other atSecond otherIs).1 oneIs otherIs same covered

end

theorem quiet_after (found : ledger.swarm.conns[i]? = some conn) {first last : Session}
    (keeps : first.KeepsWrites last) (event : Event) : Quiet (ledger.advance event
        ⟨first.torrent, ledger.swarm.conns.set i first.conn⟩)
      (ledger.advance event ⟨last.torrent, ledger.swarm.conns.set i last.conn⟩) where
  relocates := by
    have place : (ledger.swarm.conns.set i first.conn)[i]? = some first.conn :=
      getElem?_set_self (List.getElem?_eq_some_iff.mp found).1
    have again : ledger.swarm.conns.set i last.conn = (ledger.swarm.conns.set i first.conn).set i last.conn :=
      (set_set ..).symm
    exact ⟨id, relocates_set place again keeps.writing keeps.unasked⟩
  __ := keeps
  size := congrArg wordCount keeps.dirtyChunks
  fewer := by
    intro req set
    rw [advance, keeps.dirtyChunks] at set
    exact set
  received := by
    intro req byte received _
    have same : ∀ conns, clears ledger.swarm { torrent := last.torrent, conns } req =
        clears ledger.swarm { torrent := first.torrent, conns } req := by
      intro conns
      rw [clears, clears, keeps.dirtyChunks]
    simp only [advance, note] at received ⊢
    rw [same]
    exact received

/-! ## The whole swarm -/

theorem recorded_setInfo (recorded : ledger.Recorded) (unknown : ledger.swarm.torrent.info = none)
    {info : Info} (known : torrent.info = some info) (dirtyChunks : torrent.dirtyChunks =
      ledger.swarm.torrent.dirtyChunks.init (blockCount info))
    (blocks : torrent.blocks = ledger.swarm.torrent.blocks.init (blockCount info)) (event : Event) :
    (ledger.advance event ⟨torrent, ledger.swarm.conns⟩).Recorded := by
  have unsized := recorded.unsized unknown
  have dirty : torrent.dirtyChunks = new.init (blockCount info) := by
    rw [dirtyChunks, eq_new_of_wordCount unsized]
  have reserved : torrent.blocks.writing = new.init (blockCount info) := by
    have new := eq_new_of_wordCount (recorded.size.symm.trans unsized)
    rw [blocks, <- new]
    rfl
  have resting : ∀ conn ∈ ledger.swarm.conns, ∀ write, conn.writing ≠ some write := by
    intro conn member write writing
    rw [(recorded.unasked unknown conn member).2] at writing
    cases writing
  constructor
  · rw [advance, dirty, reserved]
  · intro none
    rw [advance, known] at none
    cases none
  · intro none
    rw [advance, known] at none
    cases none
  · intro req set
    rw [advance, dirty, contains_init_new] at set
    cases set
  · exact fun conn member write writing => absurd writing (resting conn member write)
  · intro i j first second one other atFirst _ oneIs
    exact absurd oneIs (resting first (mem_of_getElem? atFirst) one)

theorem applyHashResult_dirty (torrent : Torrent) (piece : Nat) (valid : Bool) :
    (torrent.applyHashResult piece valid).dirtyChunks = torrent.dirtyChunks \/
    (torrent.applyHashResult piece valid).dirtyChunks =
      torrent.dirtyChunks.removeRange (torrent.pieceRange piece).1 (torrent.pieceRange piece).2 := by
  rw [applyHashResult]
  split
  · exact .inl rfl
  split
  · exact .inl rfl
  split
  · exact .inl rfl
  · exact .inr rfl

theorem refreshPieceCompletion_dirty (torrent : Torrent) (piece : Nat) (complete readable : Bool) :
    (torrent.refreshPieceCompletion piece complete readable).dirtyChunks = torrent.dirtyChunks \/
    (torrent.refreshPieceCompletion piece complete readable).dirtyChunks =
      torrent.dirtyChunks.removeRange (torrent.pieceRange piece).1 (torrent.pieceRange piece).2 := by
  rw [refreshPieceCompletion]
  split
  · exact .inl rfl
  dsimp only
  split
  · exact .inr rfl
  · exact .inl rfl

theorem quiet_of_removeRange (start finish : Nat) (info : torrent.info = ledger.swarm.torrent.info)
    (blocks : torrent.blocks = ledger.swarm.torrent.blocks)
    (dirty : torrent.dirtyChunks = ledger.swarm.torrent.dirtyChunks \/
      torrent.dirtyChunks = ledger.swarm.torrent.dirtyChunks.removeRange start finish)
    (event : Event) :
    Quiet ledger (ledger.advance event { torrent, conns := ledger.swarm.conns }) := by
  apply quiet_of_torrent info
  · rw [blocks]
  · rcases dirty with same | removed
    · rw [same]
    · rw [removed, wordCount_removeRange]
  · intro req set
    rcases dirty with same | removed
    · rw [<- same]
      exact set
    · rw [removed, contains_removeRange, Bool.and_eq_true] at set
      exact set.1
  · exact ⟨id, relocates_map (map_id _).symm fun conn => ⟨rfl, id⟩⟩

theorem onClosed_writes (session : Session) : session.onClosed.info = session.torrent.info /\
    session.onClosed.dirtyChunks = session.torrent.dirtyChunks /\
    session.onClosed.blocks.writing = session.torrent.blocks.writing := by
  have only := onClosed_induction session .refl .trans Torrent.OnlyRequests.clearAssignment
    (.forgetPeer · session.conn.key)
  refine ⟨only.info.trans ?_, ?_, only.writing.trans ?_⟩
  · split <;> rfl
  · rw [only.frame]
    split <;> rfl
  · split <;> rfl

theorem quiet_of_onTorrent {change : Torrent -> Torrent}
    (info : (change ledger.swarm.torrent).info = ledger.swarm.torrent.info)
    (blocks : (change ledger.swarm.torrent).blocks = ledger.swarm.torrent.blocks)
    (dirty : (change ledger.swarm.torrent).dirtyChunks = ledger.swarm.torrent.dirtyChunks)
    (event : Event) : Quiet ledger (ledger.advance event (ledger.swarm.onTorrent change)) :=
  quiet_of_removeRange 0 0 info blocks (Or.inl dirty) event

theorem recorded_act (recorded : ledger.Recorded) {session : Session}
    (allowed : ledger.WholeBlocks event) (found : ledger.swarm.conns[i]? = some conn)
    (acts : Session.Acts i event ⟨ledger.swarm.torrent, conn⟩ session) :
    (ledger.advance event ⟨session.torrent, ledger.swarm.conns.set i session.conn⟩).Recorded := by
  cases acts with
  | message moves =>
    have keeps := (keepsWrites_announce _ _).trans moves.keepsWrites
    exact (quiet_of_keepsWrites found keeps _).recorded recorded
  | @reserved turn index start data _ req resting named expected won =>
    have whole := allowed conn found
    rw [<- named] at whole
    rcases startWrite_spec ⟨ledger.swarm.torrent, conn⟩
      { req := req, index := index.toNat, start := start.toNat, data := data } won with
      ⟨fresh, free, torrent, equal, info, dirtyChunks, reserved⟩
    rw [equal]
    exact recorded_reserved recorded found expected rfl (whole expected) fresh free info
      dirtyChunks reserved rfl _
  | stored writing _ => exact recorded_stored recorded found writing _
  | @finished turn write ok _ _ writing answered moves =>
    have ended := endWrite_writes ⟨ledger.swarm.torrent, conn⟩ turn write ok
    have info := endWrite_info ⟨ledger.swarm.torrent, conn⟩ turn write ok
    have resting : (endWrite ⟨ledger.swarm.torrent, conn⟩ turn write ok).conn.writing = none := rfl
    have middle := recorded_ended recorded found writing answered info ended.1 ended.2 resting
      (.pieceFinish i turn)
    exact (quiet_after found moves.keepsWrites _).recorded middle
  | ignored moves | woken moves | flagged _ moves =>
    exact (quiet_of_keepsWrites found moves.keepsWrites _).recorded recorded

theorem recorded_step {after : Ledger} (recorded : ledger.Recorded) (allowed : ledger.WholeBlocks event)
    (taken : machine.step ledger event = some after) : after.Recorded := by
  rcases map_eq_some_iff.mp taken with ⟨swarm, stepped, rfl⟩
  have change := Swarm.step_change stepped
  cases change with
  | @attach remoteAddr peerId supportsFast =>
    have new : Conn.Unasked { remoteAddr, peerId, supportsFast } := ⟨rfl, AList.notMem_empty⟩
    apply Quiet.recorded (quiet_of_torrent rfl rfl rfl (fun _ => id) _ _) recorded
    exact ⟨id, relocates_attach rfl ⟨new, rfl⟩⟩
  | act found acts => exact recorded_act recorded allowed found acts
  | @closed i conn found resting =>
    rcases onClosed_writes ⟨ledger.swarm.torrent, conn⟩ with
      ⟨info, dirtyChunks, reserved⟩
    refine (quiet_of_torrent info reserved (congrArg wordCount dirtyChunks) ?_ ?_ _).recorded recorded
    · intro req set
      rw [dirtyChunks] at set
      exact set
    · refine ⟨_, relocates_closed rfl fun other => ?_⟩
      rw [Swarm.retireConnection]
      split <;> exact ⟨rfl, fun unasked => ⟨unasked.outstanding, unasked.expected⟩⟩
  | dropConn =>
    refine Quiet.recorded (quiet_of_torrent (by rfl) ?_ (by rfl) ?_ ?_ _) recorded
    · exact (Torrent.OnlyRequests.forgetPeer ..).writing
    · exact fun _ => id
    refine ⟨id, relocates_map rfl fun other => ?_⟩
    rw [Swarm.dropRegistered]
    split <;> exact ⟨rfl, fun unasked => ⟨unasked.outstanding, unasked.expected⟩⟩
  | setInfo unknown =>
    exact recorded_setInfo recorded unknown rfl (setInfo_dirtyChunks ..) (setInfo_blocks ..) _
  | hashResult =>
    refine (quiet_of_removeRange _ _ ?_ ?_ (applyHashResult_dirty ..) _).recorded recorded
    · rw [applyHashResult_frame]
    · rw [applyHashResult_frame]
  | refreshPiece =>
    refine (quiet_of_removeRange _ _ ?_ ?_ (refreshPieceCompletion_dirty ..) _).recorded recorded
    · rw [refreshPieceCompletion_frame]
    · rw [refreshPieceCompletion_frame]
  | setPriority | openSeekWindow | setDownloadDisallowed | closeTorrent =>
    exact Quiet.recorded (quiet_of_onTorrent (by rfl) (by rfl) (by rfl) _) recorded

def There (ledger : Ledger) (piece byte : Nat) : Prop :=
  Exists fun req => (ledger.swarm.torrent.blockCoord req).piece = piece /\ ledger.received req byte = true

/-- In every run in which expected blocks come whole, all bytes of a block were
stored since its bit was cleared, if the bit is set.  So a responsive reader is
told only of bytes that were stored, or that are part of a complete piece. -/
theorem complete_of_whole_blocks (events : List Event) (ledger : Ledger)
    (run : machine.RunsTo WholeBlocks events ledger) :
    (forall req, ledger.swarm.torrent.dirtyChunks.contains req = true -> ledger.Complete req) ∧
      forall info, ledger.swarm.torrent.info = some info -> info.Addressable ->
        forall (offset len : Int) (position : Nat), offset <= position ->
        position < offset + ledger.swarm.torrent.readerHave offset len true ->
        ledger.swarm.torrent.Available info ledger.There position := by
  have recorded : ledger.Recorded := by
    apply run.stateInvariant
    · rintro start rfl
      exact recorded_init
    · intro state event after recorded allowed taken
      exact recorded_step recorded allowed taken
  refine ⟨recorded.dirty, ?_⟩
  intro info known addressable offset len position least most
  apply readerHave_available known addressable _ true offset len position least most
  intro req set byte first last
  exact ⟨req, rfl, recorded.dirty req set byte first last⟩

instance (ledger : Ledger) : ∀ event, Decidable (ledger.WholeBlocks event)
  | .pieceBegin i .. =>
    inferInstanceAs (Decidable (∀ conn ∈ ledger.swarm.conns[i]?, _))
  | .attach .. | .message .. | .pieceStore .. | .pieceFinish .. | .wake .. | .closed ..
  | .closeHandle .. | .dropConn .. | .markRefocus .. | .nudge .. | .setInfo .. | .hashResult ..
  | .refreshPiece .. | .setPriority .. | .openSeekWindow .. | .setDownloadDisallowed ..
  | .closeTorrent => isTrue trivial

/-- A torrent of one block of four bytes.  A peer is asked for the block and
answers with some bytes, which are stored. -/
def blockDelivered (data : Bytes) : List Event :=
  [.attach { ip := .v4 0x7f000001#32, port := 6881 } none true,
    .setInfo { pieceLength := 4, totalLength := 4 } [] true, .message 0 {} .haveAll,
    .message 0 { queueLimit := 5, pick := [{ req := 0, take := .free }] } .unchoke,
    .pieceBegin 0 {} 0 0 data, .pieceStore 0 true, .pieceFinish 0 {}]

theorem complete_after_whole_block :
    Exists fun ledger => machine.RunsTo WholeBlocks (blockDelivered [1, 2, 3, 4]) ledger ∧
      ledger.swarm.torrent.dirtyChunks.contains 0 = true ∧ ledger.Complete 0 := by
  have run : machine.RunsTo WholeBlocks (blockDelivered [1, 2, 3, 4])
      ((machine.exec {} (blockDelivered [1, 2, 3, 4])).get (by decide)) :=
    .of_exec_isSome rfl (by decide) _
  have set : ((machine.exec {} (blockDelivered [1, 2, 3, 4])).get
      (by decide)).swarm.torrent.dirtyChunks.contains 0 = true := by
    decide
  exact ⟨_, run, set, (complete_of_whole_blocks _ _ run).1 0 set⟩

theorem incomplete_after_short_block : ¬ forall (events : List Event) (ledger : Ledger),
      machine.RunsTo Machine.always events ledger -> forall req,
      ledger.swarm.torrent.dirtyChunks.contains req = true -> ledger.Complete req := by
  intro complete
  have run : machine.RunsTo Machine.always (blockDelivered [1])
      ((machine.exec {} (blockDelivered [1])).get (by decide)) :=
    .of_exec_isSome rfl (Machine.permits_always _ _ _) _
  -- The second byte of the block was never stored.
  have second := complete _ _ run 0 (by decide) 1 (by decide) (by decide)
  exact absurd second (by decide)

end Ledger
end TorrentPlayer.Core
