import TorrentPlayer.Core.Moves
import TorrentPlayer.Library.Tallies

namespace TorrentPlayer.Core

open Library Torrent Session Wire List

/-!
# How many peers have a piece

A peer that announces pieces one by one is counted at each of them, and a peer
that announces everything is counted once, in `haveAllPeers`.  This file
compares the two counters with what the connected peers announced.

The comparison needs care around the arrival of the info.  Counters are created
then, from the pieces recorded for every live peer, and that record is kept
also for a peer that is already counted as having everything.
-/

structure Torrent.SameCounts (before after : Torrent) : Prop where
  info : after.info = before.info
  numPieces : after.numPieces = before.numPieces
  counts : after.pieceAvailability = before.pieceAvailability
  all : after.haveAllPeers = before.haveAllPeers

variable {piece : Nat} {session after : Session} {torrent : Torrent}

namespace Torrent.SameCounts

variable (torrent : Torrent)

theorem refl : torrent.SameCounts torrent :=
  ⟨rfl, rfl, rfl, rfl⟩

theorem trans {first second third : Torrent} (earlier : first.SameCounts second)
    (later : second.SameCounts third) : first.SameCounts third :=
  ⟨later.info.trans earlier.info, later.numPieces.trans earlier.numPieces,
    later.counts.trans earlier.counts, later.all.trans earlier.all⟩

theorem withBlocks (blocks : BlockTable) : torrent.SameCounts (torrent.withBlocks blocks) :=
  ⟨rfl, rfl, rfl, rfl⟩

theorem of_onlyRequests {before after : Torrent} (only : before.OnlyRequests after) :
    before.SameCounts after := by
  rw [only.frame]
  exact ⟨rfl, rfl, rfl, rfl⟩

theorem modifyPiece (piece : Nat) (change : PieceEntry -> PieceEntry) :
    torrent.SameCounts (torrent.modifyPiece piece change) :=
  ⟨rfl, length_modify .., rfl, rfl⟩

theorem of_edits {kind : PieceEntry -> PieceEntry -> Prop} {before after : Torrent}
    (edits : Torrent.Edits piece kind before after) : before.SameCounts after := by
  refine ⟨edits.info, edits.length, ?_, ?_⟩
  · rw [edits.frame]
  · rw [edits.frame]

theorem beginChunkWrite (req : Nat) : torrent.SameCounts (torrent.beginChunkWrite req).2 := by
  rw [Torrent.beginChunkWrite]
  split
  · exact refl torrent
  split
  · exact refl torrent
  · exact withBlocks torrent _

end Torrent.SameCounts

/-- The counters are unchanged, and so is what this connection adds to them.  A
peer that has everything may get its pieces recorded meanwhile; it is not
counted by them. -/
structure Session.SameCounts (before after : Session) : Prop where
  torrent : before.torrent.SameCounts after.torrent
  haveAll : after.conn.peerSentHaveAll = before.conn.peerSentHaveAll
  pieces : before.conn.peerSentHaveAll = false -> after.conn.pieces = before.conn.pieces

namespace Session

theorem SameCounts.refl (session : Session) : session.SameCounts session :=
  ⟨.refl _, rfl, fun _ => rfl⟩

theorem SameCounts.trans {first second third : Session} (earlier : first.SameCounts second)
    (later : second.SameCounts third) : first.SameCounts third where
  torrent := earlier.torrent.trans later.torrent
  haveAll := later.haveAll.trans earlier.haveAll
  pieces := fun single => (later.pieces (earlier.haveAll.trans single)).trans (earlier.pieces single)

theorem noteCancel_announced (now : Instant) (req : Nat) (coord : BlockCoord) (conn : Conn) :
    (noteCancel now req coord conn).peerSentHaveAll = conn.peerSentHaveAll /\
    (noteCancel now req coord conn).pieces = conn.pieces := by
  simp only [noteCancel, Conn.send]
  split <;> exact ⟨rfl, rfl⟩

/-- A move leaves what the peer announced.  A peer that has everything may get
its pieces recorded. -/
theorem Move.announced (move : Move session after) :
    after.conn.peerSentHaveAll = session.conn.peerSentHaveAll /\
    (session.conn.peerSentHaveAll = false -> after.conn.pieces = session.conn.pieces) := by
  cases move with
  | tune tuned => exact ⟨tuned.peerSentHaveAll, fun _ => tuned.pieces⟩
  | cancel now member =>
    rw [cancelOutstanding, if_pos member]
    exact ⟨(noteCancel_announced ..).1, fun _ => (noteCancel_announced ..).2⟩
  | fill =>
    refine ⟨?_, fun single => ?_⟩
    · simp only [fillHaveAll, onConn]
      split <;> rfl
    · simp only [fillHaveAll, onConn, single, Bool.false_and, Bool.false_eq_true, if_false]
  | unsent =>
    rw [unclaimPicked_conn]
    exact ⟨rfl, fun _ => rfl⟩
  | refused | requested | relinquished | wasted => exact ⟨rfl, fun _ => rfl⟩

theorem Move.sameCounts (move : Move session after) : session.SameCounts after :=
  ⟨.of_onlyRequests move.onlyRequests, move.announced.1, move.announced.2⟩

theorem Moves.sameCounts {first last : Session} (moves : Moves first last) : first.SameCounts last := by
  induction moves with
  | refl => exact .refl _
  | next _ move ih => exact ih.trans move.sameCounts

end Session

/-! ## What a step adds to the counters -/

def Torrent.counted (torrent : Torrent) (piece : Nat) : Int :=
  (torrent.pieceAvailability.bind (fun counts => counts[piece]?)).getD 0

/-- The torrent has a counter for each of `count` pieces. -/
def Torrent.Sized (torrent : Torrent) (count : Nat) : Prop :=
  Exists fun counts => torrent.pieceAvailability = some counts /\ counts.length = count

def Conn.listed (piece : Nat) (conn : Conn) : Bool :=
  !conn.peerSentHaveAll && decide (piece ∈ conn.pieces)

theorem pieces_nil_of_numPieces {before after : Torrent} (same : after.numPieces = before.numPieces)
    (empty : before.pieces = []) : after.pieces = [] := by
  rw [numPieces, numPieces, empty] at same
  exact length_eq_zero_iff.mp same

theorem Torrent.sized_noteAvailability {count : Nat} (sized : torrent.Sized count)
    (pieces : Finset Nat) (delta : Int) : (torrent.noteAvailability pieces delta).Sized count := by
  obtain ⟨_, held, length⟩ := sized
  refine ⟨_, by rw [noteAvailability, held]; rfl, ?_⟩
  rw [length_mapIdx, length]

theorem Torrent.counted_noteAvailability {count : Nat} (sized : torrent.Sized count)
    (inside : piece < count) (pieces : Finset Nat) (delta : Int) :
    (torrent.noteAvailability pieces delta).counted piece =
    torrent.counted piece + if piece ∈ pieces then delta else 0 := by
  obtain ⟨counts, held, length⟩ := sized
  have found : piece < counts.length := by rw [length]; exact inside
  simp only [counted, noteAvailability, held, Option.map_some, Option.bind_some,
    getElem?_mapIdx, getElem?_eq_getElem found, Option.getD_some]
  split
  · rfl
  · rw [add_zero]

/-- A step of a handler changes the counters by exactly the change of what its
connection adds to them. -/
structure Session.Balanced (before after : Session) : Prop where
  info : after.torrent.info = before.torrent.info
  numPieces : after.torrent.numPieces = before.torrent.numPieces
  uncounted : before.torrent.pieceAvailability = none -> after.torrent.pieceAvailability = none
  sized : ∀ count, before.torrent.Sized count -> after.torrent.Sized count
  pieces : ∀ count, before.torrent.Sized count -> ∀ piece < count,
    after.torrent.counted piece = before.torrent.counted piece -
      indicator (before.conn.listed piece) + indicator (after.conn.listed piece)
  all : after.torrent.haveAllPeers = before.torrent.haveAllPeers -
    indicator before.conn.peerSentHaveAll + indicator after.conn.peerSentHaveAll

namespace Session

theorem SameCounts.listed {before : Session} (same : before.SameCounts after) (piece : Nat) :
    after.conn.listed piece = before.conn.listed piece := by
  simp only [Conn.listed, same.haveAll]
  cases single : before.conn.peerSentHaveAll with
  | true => rfl
  | false => rw [same.pieces single]

theorem SameCounts.balanced {before : Session} (same : before.SameCounts after) : before.Balanced after where
  info := same.torrent.info
  numPieces := same.torrent.numPieces
  uncounted := fun none_yet => same.torrent.counts.trans none_yet
  sized := by
    rintro count ⟨counts, held, length⟩
    exact ⟨counts, same.torrent.counts.trans held, length⟩
  pieces := by
    intro count sized piece inside
    rw [same.listed, counted, same.torrent.counts, counted]
    ring
  all := by
    rw [same.torrent.all, same.haveAll]
    ring

theorem Balanced.trans {first second third : Session} (earlier : first.Balanced second)
    (later : second.Balanced third) : first.Balanced third where
  info := later.info.trans earlier.info
  numPieces := later.numPieces.trans earlier.numPieces
  uncounted := fun none_yet => later.uncounted (earlier.uncounted none_yet)
  sized := fun count sized => later.sized count (earlier.sized count sized)
  pieces := by
    intro count sized piece inside
    rw [later.pieces count (earlier.sized count sized) piece inside, earlier.pieces count sized piece inside]
    ring
  all := by
    rw [later.all, earlier.all]
    ring

/-- A piece announced one by one by a peer that announced everything is counted
twice, unless it was recorded before or has no counter. -/
def CountsOnce (session : Session) (index : Nat) : Prop :=
  session.conn.peerSentHaveAll = true -> session.torrent.info.isSome = true ->
    index ∈ session.conn.pieces ∨ session.torrent.numPieces <= index

instance (session : Session) (index : Nat) : Decidable (session.CountsOnce index) :=
  inferInstanceAs (Decidable (_ -> _ -> _ ∨ _))

theorem balanced_announcePiece {index : Nat} (sizes : ∀ count, session.torrent.Sized count ->
      session.torrent.info.isSome = true /\ count = session.torrent.numPieces)
    (once : session.CountsOnce index) : session.Balanced (session.announcePiece index) := by
  rw [announcePiece]
  split
  · exact (SameCounts.refl session).balanced
  rename_i fresh
  constructor
  case info => rfl
  case numPieces => rfl
  case uncounted =>
    intro none_yet
    simp [onTorrent, onConn, noteAvailability, none_yet]
  case sized => exact fun count sized => sized_noteAvailability sized _ _
  case pieces =>
    intro count sized piece inside
    refine (counted_noteAvailability sized inside {index} 1).trans ?_
    simp only [onTorrent, onConn, Conn.listed, Finset.mem_singleton, Finset.mem_insert]
    by_cases same : piece = index
    · subst same
      cases single : session.conn.peerSentHaveAll with
      | false => simp [indicator, fresh]
      | true =>
        -- The peer has everything: this is the double count that is ruled out.
        obtain ⟨known, _⟩ := sizes count sized
        rcases once single known with recorded | _
        · exact absurd recorded fresh
        · omega
    · simp only [same, if_false, false_or]
      ring
  case all =>
    simp only [onTorrent, onConn, noteAvailability]
    ring

theorem balanced_announceHaveAll (session : Session) : session.Balanced session.announceHaveAll := by
  rw [announceHaveAll]
  split
  · exact (SameCounts.refl session).balanced
  rename_i single
  constructor
  case info => rfl
  case numPieces => rfl
  case uncounted =>
    intro none_yet
    simp [onTorrent, onConn, noteAvailability, noteHaveAllAvailability, none_yet]
  case sized => exact fun count sized => sized_noteAvailability sized _ _
  case pieces =>
    intro count sized piece inside
    refine (counted_noteAvailability sized inside session.conn.pieces (-1)).trans ?_
    simp only [onTorrent, onConn, Conn.listed, single]
    by_cases member : piece ∈ session.conn.pieces
    · simp [indicator, member]
      ring
    · simp [indicator, member]
  case all =>
    simp only [onTorrent, onConn, noteAvailability, noteHaveAllAvailability, single]
    simp [indicator]

theorem balanced_announceBitfield (session : Session) (bits : Bytes) :
    session.Balanced (session.announceBitfield bits) := by
  -- The record of the pieces before the bitfield counts exactly those pieces.
  have uncounted : ∀ count, session.torrent.Sized count ->
      (uncountHaveAll session.conn session.torrent).Sized count /\
      ∀ piece < count, (uncountHaveAll session.conn session.torrent).counted piece =
          session.torrent.counted piece - indicator (session.conn.listed piece) +
            indicator (decide (piece ∈ session.conn.pieces)) := by
    intro count sized
    rw [uncountHaveAll]
    cases single : session.conn.peerSentHaveAll with
    | false =>
      refine ⟨sized, fun piece _ => ?_⟩
      simp only [Conn.listed, single, Bool.not_false, Bool.true_and, Bool.false_eq_true, if_false]
      ring
    | true =>
      have sized' : (session.torrent.noteHaveAllAvailability (-1)).Sized count := sized
      refine ⟨sized_noteAvailability sized' _ _, fun piece inside => ?_⟩
      refine (counted_noteAvailability sized' inside _ _).trans ?_
      simp only [Conn.listed, single, indicator, counted, noteHaveAllAvailability]
      by_cases member : piece ∈ session.conn.pieces <;> simp [member]
  generalize next : bitfieldPieces bits session.torrent.numPieces = pieces
  constructor
  case info => exact announce_info session (.bitfield bits)
  case numPieces =>
    simp only [announceBitfield, onConn, onTorrent, noteAvailability, uncountHaveAll]
    split <;> rfl
  case uncounted =>
    intro none_yet
    simp only [announceBitfield, onConn, onTorrent, noteAvailability, uncountHaveAll]
    split <;> simp [noteHaveAllAvailability, none_yet]
  case sized =>
    intro count sized
    exact sized_noteAvailability (sized_noteAvailability (uncounted count sized).1 _ _) _ _
  case pieces =>
    intro count sized piece inside
    obtain ⟨sizedFirst, first⟩ := uncounted count sized
    have sizedSecond := sized_noteAvailability sizedFirst (session.conn.pieces \ pieces) (-1)
    rw [announceBitfield, next]
    refine (counted_noteAvailability sizedSecond inside _ _).trans ?_
    rw [counted_noteAvailability sizedFirst inside, first piece inside]
    simp only [onConn, Conn.listed, Finset.mem_sdiff, Bool.not_false, Bool.true_and]
    by_cases old : piece ∈ session.conn.pieces <;> by_cases new : piece ∈ pieces <;>
      simp [indicator, old, new]
  case all =>
    simp only [announceBitfield, onConn, onTorrent, noteAvailability, uncountHaveAll]
    cases single : session.conn.peerSentHaveAll with
    | false => simp [indicator]
    | true =>
      simp [indicator, noteHaveAllAvailability]
      ring

end Session

/-! ## What the peers announced -/

/-- What a peer has announced so far: everything, or a set of pieces. -/
structure Announcement where
  all : Bool := false
  pieces : Finset Nat := ∅

namespace Announcement

def has (piece : Nat) (announcement : Announcement) : Bool :=
  announcement.all || decide (piece ∈ announcement.pieces)

/-- A message adds to what the peer announced, or replaces it. -/
def hear (message : Message) (announcement : Announcement) : Announcement :=
  match message with
  | .have index => { announcement with pieces := insert index.toNat announcement.pieces }
  | .bitfield bits => { all := false, pieces := bitfieldPieces bits 0 }
  | .haveNone => { all := false, pieces := ∅ }
  | .haveAll => { announcement with all := true }
  | .keepalive | .choke | .unchoke | .interested | .notInterested | .request .. | .piece ..
  | .cancel .. | .port _ | .suggest _ | .reject .. | .allowedFast _ | .extended ..
  | .hashRequest _ | .hashes .. | .hashReject _ => announcement

end Announcement

/-- A swarm with a record of what each of its connections announced. -/
structure Heard where
  swarm : Swarm := {}
  roster : List Announcement := []

namespace Heard

/-- The record follows the messages and the connections, and nothing else. -/
def note (roster : List Announcement) : Event -> List Announcement
  | .attach .. => roster ++ [{}]
  | .message i _ message => roster.modify i (Announcement.hear message)
  | .closed i => roster.eraseIdx i
  | _ => roster

def machine : Machine Heard Event where
  init := fun heard => heard = {}
  step := fun heard event =>
    (heard.swarm.step event).map (fun after =>
      { swarm := after, roster := note heard.roster event })

/-- How many connected peers announced a piece, or everything. -/
def announcers (heard : Heard) (piece : Nat) : Int :=
  tally (Announcement.has piece) heard.roster

/-- The two counters of the torrent agree with the announcements at a piece, and
are zero when nobody is connected. -/
def Accounted (heard : Heard) (piece : Nat) : Prop :=
  heard.swarm.torrent.counted piece + heard.swarm.torrent.haveAllPeers = heard.announcers piece /\
    (heard.swarm.conns = [] -> heard.swarm.torrent.counted piece + heard.swarm.torrent.haveAllPeers = 0)

/-- The piece that a message announces one by one. -/
def haveIndex : Message -> Option Nat
  | .have index => some index.toNat
  | _ => none

/-- No peer is counted twice at a piece: when the info arrives, no peer that
announced everything has a piece of the torrent recorded one by one, and once
the info is known no such peer announces an unrecorded piece one by one. -/
def NoDoubleCount (heard : Heard) : Event -> Prop
  | .setInfo info _ _ =>
    ∀ conn ∈ heard.swarm.conns, conn.peerSentHaveAll = true ->
      ∀ piece ∈ conn.pieces, info.numPieces <= piece
  | .message i _ message =>
    ∀ index ∈ haveIndex message, ∀ conn ∈ heard.swarm.conns[i]?,
      Session.CountsOnce { torrent := heard.swarm.torrent, conn := conn } index
  | _ => True

/-- The recorded state of a connection reflects what its peer announced.  Once
the number of pieces is known only those pieces matter. -/
structure Reflects (numPieces : Nat) (conn : Conn) (announcement : Announcement) : Prop where
  all : conn.peerSentHaveAll = announcement.all
  pieces : announcement.all = false -> ∀ piece, numPieces = 0 ∨ piece < numPieces ->
    (piece ∈ conn.pieces <-> piece ∈ announcement.pieces)

structure Counted (heard : Heard) : Prop where
  length : heard.roster.length = heard.swarm.conns.length
  reflects : ∀ (i : Nat) (conn : Conn) (announcement : Announcement),
    heard.swarm.conns[i]? = some conn -> heard.roster[i]? = some announcement ->
    Reflects heard.swarm.torrent.numPieces conn announcement
  all : heard.swarm.torrent.haveAllPeers = tally Conn.peerSentHaveAll heard.swarm.conns
  unknown : heard.swarm.torrent.info = none ->
    heard.swarm.torrent.pieceAvailability = none /\ heard.swarm.torrent.pieces = []
  known : ∀ info, heard.swarm.torrent.info = some info ->
    heard.swarm.torrent.numPieces = info.numPieces /\ heard.swarm.torrent.Sized info.numPieces /\
      ∀ piece < info.numPieces,
        heard.swarm.torrent.counted piece = tally (Conn.listed piece) heard.swarm.conns

variable {heard : Heard}

theorem Counted.accounted (counted : Counted heard) {info : Info}
    (known : heard.swarm.torrent.info = some info) (inside : piece < info.numPieces) :
    Accounted heard piece := by
  obtain ⟨_, _, counts⟩ := counted.known info known
  have split : ∀ conn : Conn, indicator (conn.listed piece) + indicator conn.peerSentHaveAll =
        indicator (conn.peerSentHaveAll || decide (piece ∈ conn.pieces)) := by
    intro conn
    cases single : conn.peerSentHaveAll <;> simp [Conn.listed, indicator, single]
  have sum : ∀ conns : List Conn, tally (Conn.listed piece) conns + tally Conn.peerSentHaveAll conns =
        tally (fun conn => conn.peerSentHaveAll || decide (piece ∈ conn.pieces)) conns := by
    intro conns
    induction conns with
    | nil => rfl
    | cons conn conns ih =>
      rw [tally_cons, tally_cons, tally_cons, <- ih, <- split conn]
      ring
  have total : heard.swarm.torrent.counted piece + heard.swarm.torrent.haveAllPeers =
      heard.announcers piece := by
    rw [counts piece inside, counted.all, sum]
    refine tally_eq_of_agree counted.length.symm fun i conn announcement first second => ?_
    have reflects := counted.reflects i conn announcement first second
    rw [Announcement.has, reflects.all]
    cases single : announcement.all with
    | true => rfl
    | false =>
      rw [Bool.false_or, Bool.false_or, decide_eq_decide]
      exact reflects.pieces single piece (Or.inr (by omega))
  refine ⟨total, fun nobody => ?_⟩
  have empty : heard.roster = [] := by
    rw [<- length_eq_zero_iff, counted.length, nobody]
    rfl
  rw [total, announcers, empty, tally_nil]

/-! ## Handler steps -/

theorem sameCounts_startWrite (session : Session) (write : ChunkWrite) :
    session.SameCounts (session.startWrite write
      ((session.receiveChunk write.req).torrent.beginChunkWrite write.req).2) := by
  refine ⟨?_, rfl, fun _ => rfl⟩
  refine Torrent.SameCounts.trans ?_ (Torrent.SameCounts.beginChunkWrite _ write.req)
  simp only [receiveChunk, onTorrent]
  split
  · exact .withBlocks ..
  · exact .refl _

theorem sameCounts_endWrite (session : Session) (turn : Turn) (write : ChunkWrite) (ok : Bool) :
    session.SameCounts (session.endWrite turn write ok) := by
  refine ⟨?_, rfl, fun _ => rfl⟩
  refine Torrent.SameCounts.trans (.of_edits (finishChunkWrite_edits _ write.req ok)) ?_
  simp only [endWrite, onTorrent, onConn]
  split
  · rw [acceptChunk]
    refine Torrent.SameCounts.trans (.of_onlyRequests (.onChunkReceived _ write.req)) ?_
    split
    · exact .of_edits (queuePieceHash_edits ..)
    · exact .refl _
  · exact .withBlocks ..

theorem sameCounts_of_acts {i : Nat} {event : Event} (acts : Session.Acts i event session after)
    (silent : ∀ turn message, event ≠ .message i turn message) : session.SameCounts after := by
  cases acts with
  | message => exact absurd rfl (silent _ _)
  | ignored moves | woken moves | flagged _ moves => exact moves.sameCounts
  | reserved => exact sameCounts_startWrite session _
  | stored writing pending => exact ⟨.refl _, rfl, fun _ => rfl⟩
  | finished writing answered moves => exact (sameCounts_endWrite session _ _ _).trans moves.sameCounts

theorem Reflects.of_sameCounts {before : Session} {announcement : Announcement}
    (reflects : Reflects before.torrent.numPieces before.conn announcement)
    (same : before.SameCounts after) :
    Reflects after.torrent.numPieces after.conn announcement where
  all := same.haveAll.trans reflects.all
  pieces := by
    intro single piece inside
    rw [same.torrent.numPieces] at inside
    rw [same.pieces (reflects.all.trans single)]
    exact reflects.pieces single piece inside

theorem mem_bitfieldPieces_of_inside {bits : Bytes} {numPieces : Nat}
    (inside : numPieces = 0 \/ piece < numPieces) :
    piece ∈ bitfieldPieces bits numPieces <-> piece ∈ bitfieldPieces bits 0 := by
  simp only [bitfieldPieces, Finset.mem_filter, true_or, and_true]
  exact ⟨fun both => ⟨both.1, both.2.1⟩, fun both => ⟨both.1, both.2, inside⟩⟩

theorem reflects_announceBitfield (bits : Bytes) :
    Reflects (session.announceBitfield bits).torrent.numPieces (session.announceBitfield bits).conn
      { all := false, pieces := bitfieldPieces bits 0 } where
  all := rfl
  pieces := by
    intro _ piece inside
    rw [(balanced_announceBitfield session bits).numPieces] at inside
    exact mem_bitfieldPieces_of_inside inside

theorem reflects_announce {announcement : Announcement} (message : Message)
    (reflects : Reflects session.torrent.numPieces session.conn announcement) :
    Reflects (session.announce message).torrent.numPieces (session.announce message).conn
    (announcement.hear message) := by
  cases message with
  | «have» index =>
    have recorded : (session.announcePiece index.toNat).conn.pieces =
        insert index.toNat session.conn.pieces := by
      rw [announcePiece]
      split
      next known => exact (Finset.insert_eq_of_mem known).symm
      · rfl
    have same : (session.announcePiece index.toNat).conn.peerSentHaveAll = session.conn.peerSentHaveAll /\
        (session.announcePiece index.toNat).torrent.numPieces = session.torrent.numPieces := by
      rw [announcePiece]
      split <;> exact ⟨rfl, rfl⟩
    refine ⟨same.1.trans reflects.all, fun single piece inside => ?_⟩
    have inside : session.torrent.numPieces = 0 \/ piece < session.torrent.numPieces := by
      rw [<- same.2]
      exact inside
    simp only [announce, recorded, Announcement.hear, Finset.mem_insert]
    rw [reflects.pieces single piece inside]
  | bitfield bits => exact reflects_announceBitfield bits
  | haveNone => exact reflects_announceBitfield []
  | haveAll =>
    refine ⟨?_, fun single => by cases single⟩
    simp only [announce, announceHaveAll, Announcement.hear]
    split
    next already => exact already
    · rfl
  | keepalive | choke | unchoke | interested | notInterested | request | piece | cancel | port
  | suggest | reject | allowedFast | extended | hashRequest | hashes | hashReject => exact reflects

theorem balanced_announce {message : Message} (sizes : ∀ count, session.torrent.Sized count ->
      session.torrent.info.isSome = true /\ count = session.torrent.numPieces)
    (once : ∀ index, message = .have index -> session.CountsOnce index.toNat) :
    session.Balanced (session.announce message) := by
  cases message with
  | «have» index => exact balanced_announcePiece sizes (once index rfl)
  | bitfield bits => exact balanced_announceBitfield session bits
  | haveNone => exact balanced_announceBitfield session []
  | haveAll => exact balanced_announceHaveAll session
  | keepalive | choke | unchoke | interested | notInterested | request | piece | cancel | port
  | suggest | reject | allowedFast | extended | hashRequest | hashes | hashReject =>
    exact (Session.SameCounts.refl session).balanced

section
variable (counted : Counted heard)
include counted

theorem Counted.sizes (count : Nat) (sized : heard.swarm.torrent.Sized count) :
    heard.swarm.torrent.info.isSome = true /\ count = heard.swarm.torrent.numPieces := by
  obtain ⟨_, held, length⟩ := sized
  cases known : heard.swarm.torrent.info with
  | none =>
    rw [(counted.unknown known).1] at held
    cases held
  | some info =>
    obtain ⟨numPieces, ⟨others, same, size⟩, _⟩ := counted.known info known
    rw [held] at same
    cases same
    exact ⟨rfl, by rw [<- length, size, numPieces]⟩

theorem Counted.act {i : Nat} {conn : Conn} (found : heard.swarm.conns[i]? = some conn)
    (balanced : Session.Balanced ⟨heard.swarm.torrent, conn⟩ session)
    {hear : Announcement -> Announcement} (reflects : ∀ announcement,
      Reflects heard.swarm.torrent.numPieces conn announcement ->
      Reflects session.torrent.numPieces session.conn (hear announcement)) :
    Counted
      { swarm := ⟨session.torrent, heard.swarm.conns.set i session.conn⟩
        roster := heard.roster.modify i hear } where
  length := by
    rw [length_modify, length_set]
    exact counted.length
  reflects := by
    intro j other announcement first second
    rw [getElem?_set] at first
    rw [getElem?_modify] at second
    obtain ⟨before, held, rfl⟩ := Option.map_eq_some_iff.mp second
    split at first
    next same =>
      subst same
      split at first
      · cases first
        rw [if_pos rfl]
        exact reflects before (counted.reflects i conn before found held)
      · cases first
    next different =>
      rw [if_neg different]
      have kept := counted.reflects j other before first held
      exact ⟨kept.all, fun single piece inside =>
        kept.pieces single piece (by rw [<- balanced.numPieces]; exact inside)⟩
  all := by rw [balanced.all, tally_set Conn.peerSentHaveAll found, counted.all]
  unknown := by
    intro none_yet
    obtain ⟨uncounted, empty⟩ := counted.unknown (balanced.info.symm.trans none_yet)
    exact ⟨balanced.uncounted uncounted, pieces_nil_of_numPieces balanced.numPieces empty⟩
  known := by
    intro info known
    obtain ⟨numPieces, sized, counts⟩ := counted.known info (balanced.info.symm.trans known)
    refine ⟨balanced.numPieces.trans numPieces, balanced.sized _ sized, fun piece inside => ?_⟩
    rw [balanced.pieces _ sized piece inside, tally_set (Conn.listed piece) found]
    rw [counts piece inside]

/-! ## The other steps -/

theorem Counted.of_same (same : heard.swarm.torrent.SameCounts torrent) {change : Conn -> Conn}
    (silent : ∀ conn, (change conn).peerSentHaveAll = conn.peerSentHaveAll /\
      (change conn).pieces = conn.pieces) : Counted
      { swarm := ⟨torrent, heard.swarm.conns.map change⟩
        roster := heard.roster } where
  length := by
    rw [length_map]
    exact counted.length
  reflects := by
    intro i conn announcement first second
    rw [getElem?_map] at first
    obtain ⟨before, held, rfl⟩ := Option.map_eq_some_iff.mp first
    have kept := counted.reflects i before announcement held second
    refine ⟨(silent before).1.trans kept.all, fun single piece inside => ?_⟩
    rw [(silent before).2]
    exact kept.pieces single piece (by rw [<- same.numPieces]; exact inside)
  all := by
    rw [same.all, counted.all, tally_map]
    exact tally_congr fun conn _ => (silent conn).1.symm
  unknown := by
    intro none_yet
    obtain ⟨uncounted, empty⟩ := counted.unknown (same.info.symm.trans none_yet)
    exact ⟨same.counts.trans uncounted, pieces_nil_of_numPieces same.numPieces empty⟩
  known := by
    intro info known
    obtain ⟨numPieces, ⟨counts, held, length⟩, listed⟩ :=
      counted.known info (same.info.symm.trans known)
    refine ⟨same.numPieces.trans numPieces, ⟨counts, same.counts.trans held, length⟩, ?_⟩
    intro piece inside
    have equal : torrent.counted piece = heard.swarm.torrent.counted piece := by
      rw [Torrent.counted, same.counts, Torrent.counted]
    rw [equal, listed piece inside, tally_map]
    refine tally_congr fun conn _ => ?_
    rw [Conn.listed, Conn.listed, (silent conn).1, (silent conn).2]

theorem Counted.of_sameTorrent (same : heard.swarm.torrent.SameCounts torrent) : Counted
      { swarm := ⟨torrent, heard.swarm.conns⟩
        roster := heard.roster } := by
  have kept : Counted
      { swarm := ⟨torrent, heard.swarm.conns.map id⟩
        roster := heard.roster } :=
    counted.of_same same fun _ => ⟨rfl, rfl⟩
  rwa [map_id] at kept

theorem Counted.attach {conn : Conn}
    (single : conn.peerSentHaveAll = false) (nothing : conn.pieces = ∅) : Counted
      { swarm := ⟨heard.swarm.torrent, heard.swarm.conns ++ [conn]⟩
        roster := heard.roster ++ [{}] } where
  length := by
    rw [length_append, length_append, counted.length]
    rfl
  reflects := by
    intro i other announcement first second
    rw [getElem?_append] at first second
    rw [counted.length] at second
    split at first
    next inside =>
      rw [if_pos inside] at second
      exact counted.reflects i other announcement first second
    next outside =>
      rw [if_neg outside] at second
      have last : i - heard.swarm.conns.length = 0 := by
        have bound := (List.getElem?_eq_some_iff.mp first).1
        simp only [length_singleton] at bound
        omega
      rw [last] at first second
      cases first
      cases second
      exact ⟨single, fun _ piece _ => by simp [nothing]⟩
  all := by
    rw [tally_append, tally_cons, single]
    exact counted.all.trans (by simp [indicator])
  unknown := counted.unknown
  known := by
    intro info known
    obtain ⟨numPieces, sized, listed⟩ := counted.known info known
    refine ⟨numPieces, sized, fun piece inside => ?_⟩
    have adds : indicator (conn.listed piece) = 0 := by simp [Conn.listed, nothing, indicator]
    rw [tally_append, tally_cons, tally_nil, adds]
    exact (listed piece inside).trans (by ring)

end

theorem counts_onClosed (torrent : Torrent) (conn : Conn) : Torrent.SameCounts
    (if conn.peerSentHaveAll then torrent.noteHaveAllAvailability (-1)
      else torrent.noteAvailability conn.pieces (-1))
    (onClosed ⟨torrent, conn⟩) :=
  onClosed_induction ⟨torrent, conn⟩ .refl .trans (fun _ _ => .withBlocks ..) (fun _ => .withBlocks ..)

/-- The end of a connection, as a balanced step to a connection that announced
nothing. -/
theorem balanced_onClosed (torrent : Torrent) (conn : Conn) : Session.Balanced ⟨torrent, conn⟩
      { torrent := onClosed ⟨torrent, conn⟩
        conn := { conn with peerSentHaveAll := false, pieces := ∅ } } := by
  have taken : Session.Balanced ⟨torrent, conn⟩
      { torrent := if conn.peerSentHaveAll then torrent.noteHaveAllAvailability (-1)
          else torrent.noteAvailability conn.pieces (-1)
        conn := { conn with peerSentHaveAll := false, pieces := ∅ } } := by
    cases single : conn.peerSentHaveAll with
    | true =>
      refine ⟨rfl, rfl, id, fun _ => id, fun count sized piece inside => ?_, ?_⟩
      · simp [Conn.listed, single, indicator, counted, noteHaveAllAvailability]
      · simp [indicator, noteHaveAllAvailability, single]
        ring
    | false =>
      refine ⟨rfl, rfl, fun none_yet => ?_, fun _ sized => sized_noteAvailability sized _ _,
        fun count sized piece inside => ?_, ?_⟩
      · exact Option.map_eq_none_iff.mpr none_yet
      · refine (counted_noteAvailability sized inside conn.pieces (-1)).trans ?_
        by_cases member : piece ∈ conn.pieces <;>
          simp [Conn.listed, single, indicator, member]
        ring
      · simp [indicator, noteAvailability, single]
  exact taken.trans (Session.SameCounts.balanced ⟨counts_onClosed torrent conn, rfl, fun _ => rfl⟩)

theorem Counted.closed (counted : Counted heard) {i : Nat} {conn : Conn}
    (found : heard.swarm.conns[i]? = some conn) :
    Counted
      { swarm :=
          { torrent := onClosed ⟨heard.swarm.torrent, conn⟩
            conns := heard.swarm.conns.eraseIdx i }
        roster := heard.roster.eraseIdx i } := by
  have balanced := balanced_onClosed heard.swarm.torrent conn
  constructor
  case length =>
    have inside := (List.getElem?_eq_some_iff.mp found).1
    rw [length_eraseIdx_of_lt inside, length_eraseIdx_of_lt, counted.length]
    rw [counted.length]
    exact inside
  case reflects =>
    intro j other announcement first second
    have kept : Reflects heard.swarm.torrent.numPieces other announcement := by
      rw [getElem?_eraseIdx] at first second
      split at first
      next before =>
        rw [if_pos before] at second
        exact counted.reflects j other announcement first second
      next after =>
        rw [if_neg after] at second
        exact counted.reflects (j + 1) other announcement first second
    exact ⟨kept.all, fun single piece inside =>
      kept.pieces single piece (by rw [<- balanced.numPieces]; exact inside)⟩
  case all =>
    rw [balanced.all, tally_eraseIdx Conn.peerSentHaveAll found]
    simp [indicator, counted.all]
  case unknown =>
    intro none_yet
    obtain ⟨uncounted, empty⟩ := counted.unknown (balanced.info.symm.trans none_yet)
    exact ⟨balanced.uncounted uncounted, pieces_nil_of_numPieces balanced.numPieces empty⟩
  case known =>
    intro info known
    obtain ⟨numPieces, sized, listed⟩ := counted.known info (balanced.info.symm.trans known)
    refine ⟨balanced.numPieces.trans numPieces, balanced.sized _ sized, fun piece inside => ?_⟩
    rw [balanced.pieces _ sized piece inside, tally_eraseIdx (Conn.listed piece) found]
    simp [Conn.listed, indicator, listed piece inside]

theorem foldl_noteAvailability {count : Nat} :
    ∀ (live : List (Finset Nat)) (torrent : Torrent), torrent.Sized count ->
      (live.foldl (fun torrent pieces => torrent.noteAvailability pieces 1) torrent).Sized count /\
      (∀ piece < count,
        (live.foldl (fun torrent pieces => torrent.noteAvailability pieces 1) torrent).counted
          piece = torrent.counted piece + tally (fun pieces => decide (piece ∈ pieces)) live) /\
      (live.foldl (fun torrent pieces => torrent.noteAvailability pieces 1) torrent).haveAllPeers =
        torrent.haveAllPeers /\
      (live.foldl (fun torrent pieces => torrent.noteAvailability pieces 1) torrent).pieces = torrent.pieces
  | [], torrent, sized => ⟨sized, fun _ _ => by simp, rfl, rfl⟩
  | pieces :: live, torrent, sized => by
      have sized' := sized_noteAvailability sized pieces 1
      obtain ⟨size, counts, all, entries⟩ := foldl_noteAvailability live _ sized'
      refine ⟨size, fun piece inside => ?_, all, entries⟩
      rw [foldl_cons, counts piece inside, counted_noteAvailability sized inside, tally_cons]
      by_cases member : piece ∈ pieces <;> simp [member, indicator]
      ring

theorem Counted.setInfo (counted : Counted heard) {info : Info} (complete : Nat -> Bool)
    (downloadAll : Bool) (unknown : heard.swarm.torrent.info = none)
    (once : ∀ conn ∈ heard.swarm.conns, conn.peerSentHaveAll = true ->
      ∀ piece ∈ conn.pieces, info.numPieces <= piece) :
    Counted
      { swarm :=
          { torrent := heard.swarm.torrent.setInfo info complete downloadAll
              (heard.swarm.conns.map Conn.pieces)
            conns := heard.swarm.conns }
        roster := heard.roster } := by
  obtain ⟨uncounted, empty⟩ := counted.unknown unknown
  -- The torrent as it is when the live peers are counted.
  generalize entries : ((List.range info.numPieces).map (fun piece : Nat =>
    ({ priority := if downloadAll then .normal else .none
       basePriority := if downloadAll then .normal else .none
       complete := complete piece } : PieceEntry))) = pieces
  have length : pieces.length = info.numPieces := by rw [<- entries, length_map, length_range]
  let start : Torrent :=
    { heard.swarm.torrent with
      pieces := pieces
      dirtyChunks := heard.swarm.torrent.dirtyChunks.init (blockCount info)
      blocks := heard.swarm.torrent.blocks.init (blockCount info)
      pieceAvailability := some (List.replicate info.numPieces 0) }
  have sized : start.Sized info.numPieces := ⟨_, rfl, length_replicate⟩
  have result : heard.swarm.torrent.setInfo info complete downloadAll (heard.swarm.conns.map Conn.pieces) =
        { (heard.swarm.conns.map Conn.pieces).foldl
            (fun torrent pieces => torrent.noteAvailability pieces 1) start with
          info := some info } := by
    simp only [Torrent.setInfo, Torrent.initAvailability, uncounted, Option.getD_none, entries, start]
  obtain ⟨size, counts, all, kept⟩ :=
    foldl_noteAvailability (heard.swarm.conns.map Conn.pieces) start sized
  rw [result]
  generalize (heard.swarm.conns.map Conn.pieces).foldl
    (fun torrent pieces => torrent.noteAvailability pieces 1) start = counting at size counts all kept
  have number : counting.numPieces = info.numPieces := by
    rw [numPieces, kept]
    exact length
  constructor
  case length => exact counted.length
  case reflects =>
    intro i conn announcement first second
    have before := counted.reflects i conn announcement first second
    refine ⟨before.all, fun single piece _ => before.pieces single piece (Or.inl ?_)⟩
    rw [numPieces, empty]
    rfl
  case all => exact all.trans counted.all
  case unknown => intro none_yet; cases none_yet
  case known =>
    intro known same
    cases same
    refine ⟨number, size, fun piece inside => ?_⟩
    have zero : start.counted piece = 0 := by simp [start, Torrent.counted, inside]
    refine (counts piece inside).trans ?_
    rw [zero, zero_add, tally_map]
    refine tally_congr fun conn member => ?_
    cases single : conn.peerSentHaveAll with
    | false => simp [Conn.listed, single]
    | true =>
      have absent : piece ∉ conn.pieces := fun recorded => by
        have := once conn member single piece recorded
        omega
      simp [Conn.listed, absent]

/-! ## Runs -/

theorem counted_init : Counted {} where
  length := rfl
  reflects := fun _ _ _ found => by cases found
  all := rfl
  unknown := fun _ => ⟨rfl, rfl⟩
  known := fun _ known => by cases known

theorem counted_step {after : Heard} {event : Event} (counted : Counted heard)
    (allowed : heard.NoDoubleCount event) (taken : machine.step heard event = some after) :
    Counted after := by
  obtain ⟨swarm, stepped, rfl⟩ := Option.map_eq_some_iff.mp taken
  have change := Swarm.step_change stepped
  cases change with
  | attach => exact counted.attach rfl rfl
  | @act i event conn session found acts =>
    by_cases spoken : Exists fun turn => Exists fun message => event = .message i turn message
    · obtain ⟨_, message, rfl⟩ := spoken
      cases acts with
      | message moves =>
        have once : ∀ index, message = .have index ->
            Session.CountsOnce ⟨heard.swarm.torrent, conn⟩ index.toNat := by
          rintro index rfl
          exact allowed index.toNat rfl conn found
        have announced := balanced_announce counted.sizes once
        refine counted.act found (announced.trans moves.sameCounts.balanced) fun announcement reflects => ?_
        exact (reflects_announce message reflects).of_sameCounts moves.sameCounts
      | flagged flag => rcases flag with flag | flag | flag <;> cases flag
    · have silent : ∀ turn message, event ≠ .message i turn message :=
        fun turn message equal => spoken ⟨turn, message, equal⟩
      have same := sameCounts_of_acts acts silent
      have unheard : note heard.roster event = heard.roster.modify i id := by
        rw [modify_id]
        cases acts with
        | message => exact absurd rfl (silent _ _)
        | ignored | reserved | stored | finished | woken => rfl
        | flagged flag => rcases flag with rfl | rfl | rfl <;> rfl
      rw [unheard]
      exact counted.act found same.balanced fun announcement reflects => reflects.of_sameCounts same
  | closed found =>
    refine (counted.closed found).of_same (.refl _) fun conn => ?_
    rw [Swarm.retireConnection]
    split <;> exact ⟨rfl, rfl⟩
  | dropConn =>
    refine counted.of_same (.withBlocks ..) fun conn => ?_
    rw [Swarm.dropRegistered]
    split <;> exact ⟨rfl, rfl⟩
  | setInfo unknown => exact counted.setInfo _ _ unknown allowed
  | hashResult => exact counted.of_sameTorrent (.of_edits (applyHashResult_edits ..))
  | refreshPiece => exact counted.of_sameTorrent (.of_edits (refreshPieceCompletion_edits ..))
  | setPriority => exact counted.of_sameTorrent (.modifyPiece ..)
  | openSeekWindow | setDownloadDisallowed | closeTorrent => exact counted.of_sameTorrent ⟨rfl, rfl, rfl, rfl⟩

/-- In every run without a double count, the counters of every piece say how
many connected peers announced it. -/
theorem accounted_of_no_double_count (events : List Event) (heard : Heard)
    (run : machine.RunsTo NoDoubleCount events heard) (info : Info)
    (known : heard.swarm.torrent.info = some info) (piece : Nat)
    (inside : piece < info.numPieces) : Accounted heard piece := by
  refine Counted.accounted ?_ known inside
  apply run.stateInvariant
  · rintro start rfl
    exact counted_init
  · intro state label after counted allowed taken
    exact counted_step counted allowed taken

instance (heard : Heard) : ∀ event, Decidable (heard.NoDoubleCount event)
  | .setInfo _ _ _ =>
    inferInstanceAs (Decidable (∀ conn ∈ heard.swarm.conns, _))
  | .message _ _ message =>
    inferInstanceAs (Decidable (∀ index ∈ haveIndex message, _))
  | .attach .. | .pieceBegin .. | .pieceStore .. | .pieceFinish .. | .wake .. | .closed ..
  | .closeHandle .. | .dropConn .. | .markRefocus .. | .nudge .. | .hashResult ..
  | .refreshPiece .. | .setPriority .. | .openSeekWindow .. | .setDownloadDisallowed ..
  | .closeTorrent => isTrue trivial

/-- A loopback address for the runs below. -/
def someAddr : SocketAddr :=
  { ip := .v4 0x7f000001#32, port := 6881 }

/-- One peer announces a piece and another everything before the info arrives;
the first one announces everything later on. -/
def orderlyAnnouncements : List Event :=
  [.attach someAddr none true, .attach { someAddr with port := 6882 } none true,
    .message 0 {} (.have 5), .message 1 {} .haveAll,
    .setInfo { pieceLength := 1, totalLength := 8 } [] true, .message 0 {} .haveAll]

theorem accounted_after_orderly_announcements :
    Exists fun heard => machine.RunsTo NoDoubleCount orderlyAnnouncements heard ∧
      heard.announcers 5 = 2 ∧ Accounted heard 5 := by
  have run : machine.RunsTo NoDoubleCount orderlyAnnouncements
      ((machine.exec {} orderlyAnnouncements).get (by decide)) :=
    .of_exec_isSome rfl (by decide) _
  refine ⟨_, run, by decide, ?_⟩
  apply accounted_of_no_double_count _ _ run { pieceLength := 1, totalLength := 8 }
  · decide
  · decide

/-- A peer announces one piece and then everything, before the info arrives. -/
def pieceThenEverything : List Event :=
  [.attach someAddr none true, .message 0 {} (.have 5), .message 0 {} .haveAll,
    .setInfo { pieceLength := 1, totalLength := 8 } [] true]

theorem counted_twice_after_have_all : ¬ forall (events : List Event) (heard : Heard),
      machine.RunsTo Machine.always events heard -> forall info,
      heard.swarm.torrent.info = some info -> forall piece, piece < info.numPieces ->
      Accounted heard piece := by
  intro accounted
  have run : machine.RunsTo Machine.always pieceThenEverything
      ((machine.exec {} pieceThenEverything).get (by decide)) :=
    .of_exec_isSome rfl (Machine.permits_always _ _ _) _
  have counts := accounted _ _ run { pieceLength := 1, totalLength := 8 } (by decide) 5 (by decide)
  exact absurd counts.1 (by decide)

end Heard
end TorrentPlayer.Core
