import TorrentPlayer.Core.Holds
import TorrentPlayer.Core.Moves

namespace TorrentPlayer.Core

open Library BlockTable Torrent Machine Wire List

/-!
# Every assigned block is on its way

The block table says which peers were asked for a block, and every connection
keeps the list of requests it waits for.  The two are changed by different
statements of many handlers.  The invariant that connects them is that whatever
the table assigns to a peer, a connection of that peer waits for or is storing.

The table knows a peer by its key alone, so two open connections with one key
share their entries.  Whatever is assigned to the key is then known to one of
them, not to both.  As long as every new connection has a key that no open
connection has, the connection that knows of a block is the one with its key.
-/

namespace Torrent

/-- The owned bits show every owner and have room for every block.  They have no
size before the info is known. -/
structure Sound (torrent : Torrent) : Prop where
  marked : torrent.blocks.Marked
  sized : ∀ info, torrent.info = some info -> ∀ req < blockCount info,
    torrent.blocks.owned.covers req = true
  unsized : torrent.info = none -> torrent.blocks.owned.wordCount = none

theorem Sound.of_within {gained : Nat -> PeerKey -> Prop} {before after : Torrent}
    (sound : before.Sound) (info : after.info = before.info)
    (within : BlockTable.Within gained before.blocks after.blocks) : after.Sound where
  marked := within.marked sound.marked
  sized := by
    intro found known req inside
    rw [ChunkBits.covers_of_wordCount within.wordCount]
    exact sound.sized found (info.symm.trans known) req inside
  unsized := by
    intro unknown
    rw [within.wordCount]
    exact sound.unsized (info.symm.trans unknown)

theorem sound_setInfo {torrent : Torrent} (sound : torrent.Sound) (unknown : torrent.info = none)
    {after : Torrent} {info : Info} (known : after.info = some info)
    (blocks : after.blocks = torrent.blocks.init (blockCount info)) : after.Sound := by
  have fresh : torrent.blocks.owned = ChunkBits.new :=
    ChunkBits.eq_new_of_wordCount (sound.unsized unknown)
  have owned : after.blocks.owned = ChunkBits.new.init (blockCount info) := by
    rw [blocks, <- fresh]
    rfl
  constructor
  · intro req named
    rw [blocks] at named
    -- An owner before the info is known would have shown in the bits.
    have visible := sound.marked req named
    rw [fresh] at visible
    cases visible
  · intro found same req inside
    rw [known] at same
    cases same
    rw [owned]
    exact ChunkBits.covers_init_new inside
  · intro none
    rw [known] at none
    cases none

end Torrent

/-! ## What a connection waits for -/

/-- The connection waits for the block or is storing it. -/
def Conn.Tracks (conn : Conn) (req : Nat) : Prop :=
  req ∈ conn.outstandingRequests ∨ conn.writing.any (fun write => write.req == req) = true

variable {session : Session} {i : Nat}

namespace Session

/-- The handler knows of every block that the table assigns to its peer, except
for those that other connections with its key look after. -/
structure Tracked (owners copies : Nat -> Prop) (session : Session) : Prop where
  owner : ∀ req, (session.torrent.blocks.get req).ownedBy session.conn.key = true ->
    owners req ∨ session.conn.Tracks req
  second : ∀ req, (session.torrent.blocks.get req).second = some session.conn.key ->
    copies req ∨ req ∈ session.conn.outstandingRequests

/-- A change by a handler that keeps the table honest: other peers gain nothing,
a closed handle gains nothing, and the handler keeps track of its own blocks. -/
structure Honest (before after : Session) : Prop where
  remoteAddr : after.conn.remoteAddr = before.conn.remoteAddr
  dropped : after.conn.dropped = before.conn.dropped
  handleClosed : before.conn.handleClosed = true -> after.conn.handleClosed = true
  info : after.torrent.info = before.torrent.info
  within : before.torrent.Sound ->
    BlockTable.Within (fun _ peer => peer = before.conn.key /\ before.conn.handleClosed = false)
      before.torrent.blocks after.torrent.blocks
  tracked : before.torrent.Sound -> ∀ owners copies,
    before.Tracked owners copies -> after.Tracked owners copies

variable {before : Session}

namespace Honest

theorem key {after : Session} (honest : Honest before after) : after.conn.key = before.conn.key := by
  rw [Conn.key, Conn.key, honest.remoteAddr]

theorem sound {after : Session} (honest : Honest before after) (sound : before.torrent.Sound) :
    after.torrent.Sound :=
  sound.of_within honest.info (honest.within sound)

theorem refl (session : Session) : Honest session session :=
  ⟨rfl, rfl, id, rfl, fun _ => .refl _, fun _ _ _ => id⟩

theorem trans {first second third : Session} (earlier : Honest first second)
    (later : Honest second third) : Honest first third where
  remoteAddr := later.remoteAddr.trans earlier.remoteAddr
  dropped := later.dropped.trans earlier.dropped
  handleClosed := fun closed => later.handleClosed (earlier.handleClosed closed)
  info := later.info.trans earlier.info
  within := by
    intro sound
    apply (earlier.within sound).trans
    apply (later.within (earlier.sound sound)).mono
    intro req peer gained
    refine ⟨gained.1.trans earlier.key, ?_⟩
    rw [<- Bool.not_eq_true]
    intro closed
    have stillClosed := earlier.handleClosed closed
    rw [gained.2] at stillClosed
    cases stillClosed
  tracked := fun sound owners copies tracked =>
    later.tracked (earlier.sound sound) owners copies (earlier.tracked sound owners copies tracked)

variable {after : Session} (remoteAddr : after.conn.remoteAddr = before.conn.remoteAddr)
  (dropped : after.conn.dropped = before.conn.dropped)
  (handleClosed : before.conn.handleClosed = true -> after.conn.handleClosed = true)
  (info : after.torrent.info = before.torrent.info)
include remoteAddr dropped handleClosed info

/-- A change that gives nobody a block, after which the handler still waits for
every block it holds and waited for. -/
theorem of_shrinks (shrinks : BlockTable.Shrinks before.torrent.blocks after.torrent.blocks)
    (owner : before.torrent.Sound -> ∀ req, (after.torrent.blocks.get req).ownedBy before.conn.key = true ->
      before.conn.Tracks req -> after.conn.Tracks req) (second : before.torrent.Sound -> ∀ req,
      (after.torrent.blocks.get req).second = some before.conn.key ->
      req ∈ before.conn.outstandingRequests -> req ∈ after.conn.outstandingRequests) :
    Honest before after where
  remoteAddr := remoteAddr
  dropped := dropped
  handleClosed := handleClosed
  info := info
  within := fun _ => shrinks.mono fun _ _ => False.elim
  tracked := by
    intro sound owners copies tracked
    have key : after.conn.key = before.conn.key := by rw [Conn.key, Conn.key, remoteAddr]
    constructor
    · intro req owns
      rw [key] at owns
      have earlier := tracked.owner req ((shrinks.owner _ _ owns).resolve_right id)
      exact earlier.imp_right (owner sound req owns)
    · intro req copied
      rw [key] at copied
      have earlier := tracked.second req ((shrinks.second _ _ copied).resolve_right id)
      exact earlier.imp_right (second sound req copied)

theorem of_sameRequests (blocks : after.torrent.blocks = before.torrent.blocks)
    (outstanding : after.conn.outstandingRequests = before.conn.outstandingRequests)
    (writing : after.conn.writing.map ChunkWrite.req = before.conn.writing.map ChunkWrite.req) :
    Honest before after := by
  apply of_shrinks remoteAddr dropped handleClosed info
  · rw [blocks]
    exact .refl _
  · intro _ req _
    have same : ∀ conn : Conn, conn.writing.any (fun write => write.req == req) =
        (conn.writing.map ChunkWrite.req).any (fun other => other == req) := by
      intro conn
      cases conn.writing <;> rfl
    rw [Conn.Tracks, Conn.Tracks, same after.conn, same before.conn, outstanding, writing]
    exact id
  · intro _ req _
    rw [outstanding]
    exact id

end Honest

/-! ## Moves are honest -/

variable {write : ChunkWrite} {after : Session} (torrent : Torrent) (now : Instant) (req : Nat)
  (peer : PeerKey)

theorem shrinks_giveUp (req : Nat) (torrent : Torrent) :
    BlockTable.Shrinks torrent.blocks (giveUp peer req torrent).blocks := by
  have second := torrent.blocks.shrinks_releaseSecond req peer
  rw [giveUp]
  split
  · exact second.trans (shrinks_release _ req peer)
  · exact second

theorem not_holds_giveUp {torrent : Torrent} (marked : torrent.blocks.Marked) (peer : PeerKey)
    (req : Nat) : (giveUp peer req torrent).blocks.holds req peer = false := by
  rw [giveUp]
  split
  · exact not_holds_releaseSecond_release _ req peer
  rename_i other
  rw [not_holds_iff]
  constructor
  · rw [<- Bool.not_eq_true]
    intro mine
    apply other
    apply ownedBy_of_marked marked
    rw [Hold.ownedBy, <- torrent.blocks.owner_releaseSecond req peer]
    exact mine
  · exact second_releaseSecond_ne _ req peer

theorem Honest.of_taken {req : Nat} (remoteAddr : after.conn.remoteAddr = before.conn.remoteAddr)
    (dropped : after.conn.dropped = before.conn.dropped)
    (handleClosed : before.conn.handleClosed = true -> after.conn.handleClosed = true)
    (info : after.torrent.info = before.torrent.info)
    (shrinks : BlockTable.Shrinks before.torrent.blocks after.torrent.blocks)
    (gone : before.torrent.Sound -> after.torrent.blocks.holds req before.conn.key = false)
    (outstanding : after.conn.outstandingRequests =
      before.conn.outstandingRequests.filter (fun request => request != req))
    (writing : after.conn.writing = before.conn.writing) : Honest before after := by
  have kept : ∀ other, other ≠ req -> other ∈ before.conn.outstandingRequests ->
      other ∈ after.conn.outstandingRequests := by
    intro other different member
    rw [outstanding]
    exact mem_filter.mpr ⟨member, bne_iff_ne.mpr different⟩
  apply Honest.of_shrinks remoteAddr dropped handleClosed info shrinks
  · intro sound other owns
    have different : other ≠ req := by
      rintro rfl
      rw [((not_holds_iff ..).mp (gone sound)).1] at owns
      cases owns
    rw [Conn.Tracks, Conn.Tracks, writing]
    exact Or.imp_left (kept other different)
  · intro sound other copies
    apply kept other
    rintro rfl
    exact ((not_holds_iff ..).mp (gone sound)).2 copies

theorem honest_cancelOutstanding {req : Nat} (member : req ∈ session.conn.outstandingRequests) :
    Honest session (session.cancelOutstanding now req) := by
  have info := (onlyRequests_cancelOutstanding session now req).info
  have closed := cancelOutstanding_handleClosed session now req
  rw [cancelOutstanding, if_pos member] at info closed ⊢
  have sent : ∀ (conn : Conn) (message : Message), (conn.send message).remoteAddr = conn.remoteAddr /\
        (conn.send message).dropped = conn.dropped /\
        (conn.send message).outstandingRequests = conn.outstandingRequests /\
        (conn.send message).writing = conn.writing := by
    intro conn message
    rw [Conn.send]
    split <;> exact ⟨rfl, rfl, rfl, rfl⟩
  refine Honest.of_taken (sent _ _).1 (sent _ _).2.1 (fun before => closed.trans before) info
    (shrinks_giveUp session.conn.key req session.torrent) (fun sound => ?_) (sent _ _).2.2.1
    (sent _ _).2.2.2
  exact not_holds_giveUp sound.marked session.conn.key req

theorem disown_spec (req : Nat) : BlockTable.Shrinks torrent.blocks
      (if torrent.requestingPeer req = some peer then torrent.clearAssignment req
        else torrent).blocks /\ (torrent.blocks.Marked ->
      ((if torrent.requestingPeer req = some peer then torrent.clearAssignment req
        else torrent).blocks.get req).ownedBy peer = false) := by
  split
  · refine ⟨shrinks_clearOwner _ req, fun _ => ?_⟩
    show ((torrent.blocks.clearOwner req).get req).ownedBy peer = false
    rw [get_clearOwner, if_pos rfl]
    rfl
  next other =>
    refine ⟨.refl _, fun marked => ?_⟩
    rw [<- Bool.not_eq_true]
    intro mine
    exact other (ownedBy_of_marked marked mine)

theorem uncopy_spec (req : Nat) : BlockTable.Shrinks torrent.blocks
      (if torrent.hedgePeer req = some peer then torrent.releaseHedge req peer
        else torrent).blocks /\ ((torrent.blocks.get req).ownedBy peer = false ->
      (if torrent.hedgePeer req = some peer then torrent.releaseHedge req peer
        else torrent).blocks.holds req peer = false) := by
  split
  · refine ⟨shrinks_releaseSecond _ req peer, fun unowned => ?_⟩
    rw [not_holds_iff]
    refine ⟨?_, second_releaseSecond_ne _ req peer⟩
    show ((torrent.blocks.releaseSecond req peer).get req).ownedBy peer = false
    rw [Hold.ownedBy, owner_releaseSecond]
    exact unowned
  next other =>
    refine ⟨.refl _, fun unowned => ?_⟩
    rw [not_holds_iff]
    exact ⟨unowned, other⟩

section
variable (session : Session)

theorem honest_relinquish (req : Nat) : Honest session (session.relinquish req) := by
  have disowned := disown_spec session.torrent session.conn.key req
  have uncopied := uncopy_spec (if session.torrent.requestingPeer req = some session.conn.key then
      session.torrent.clearAssignment req else session.torrent) session.conn.key req
  refine Honest.of_taken rfl rfl id (onlyRequests_relinquish session req).info ?_ (fun sound => ?_) rfl rfl
  · exact disowned.1.trans uncopied.1
  · exact uncopied.2 (disowned.2 sound.marked)

theorem receiveChunk_spec (req : Nat) :
    BlockTable.Shrinks session.torrent.blocks (session.receiveChunk req).torrent.blocks /\
    ((session.receiveChunk req).torrent.blocks.get req).second ≠ some session.conn.key := by
  by_cases mine : session.torrent.hedgePeer req = some session.conn.key
  · have cleared : (session.receiveChunk req).torrent = session.torrent.clearHedge req :=
      if_pos mine
    rw [cleared]
    refine ⟨shrinks_clearSecond _ req, ?_⟩
    show ((session.torrent.blocks.clearSecond req).get req).second ≠ some session.conn.key
    rw [get_clearSecond, if_pos rfl]
    nofun
  · have same : (session.receiveChunk req).torrent = session.torrent :=
      if_neg mine
    rw [same]
    exact ⟨.refl _, mine⟩

theorem honest_wasteChunk (req : Nat) : Honest session (session.wasteChunk req) := by
  have received := (receiveChunk_spec session req).1
  refine Honest.of_taken rfl rfl id (onlyRequests_receiveChunk session req).info ?_ (fun _ => ?_) rfl rfl
  · exact received.trans ((shrinks_release _ req session.conn.key).trans
      (shrinks_releaseSecond _ req session.conn.key))
  · exact not_holds_release_releaseSecond _ req session.conn.key

/-- What a claim does to the table: a refused claim gives nobody a block, a
claim that is taken back leaves nothing behind, and any other one gives the
block to the peer. -/
structure ClaimSpec (req : Nat) (peer : PeerKey) (before : BlockTable) (won : Bool)
    (after undone : BlockTable) : Prop where
  refused : won = false -> BlockTable.Shrinks before after
  within : before.owned.covers req = true ->
    BlockTable.Within (BlockTable.Gains req peer) before after
  undone : won = true -> BlockTable.Shrinks before undone

theorem claimRequest_spec (asked : Instant) :
    ClaimSpec req peer torrent.blocks (torrent.claimRequest req peer asked).1
    (torrent.claimRequest req peer asked).2.blocks
    ((torrent.claimRequest req peer asked).2.releaseRequest req peer).blocks := by
  rw [claimRequest]
  split
  · exact ⟨fun _ => .refl _, fun _ => .refl _, fun won => absurd won Bool.false_ne_true⟩
  exact ⟨shrinks_claim_refused, fun covered => within_claim covered peer asked,
    shrinks_claim_release torrent.blocks req peer asked⟩

theorem claimHedge_spec : ClaimSpec req peer torrent.blocks (torrent.claimHedge req peer).1
    (torrent.claimHedge req peer).2.blocks
    ((torrent.claimHedge req peer).2.clearHedge req).blocks := by
  rw [claimHedge]
  split
  · exact ⟨fun _ => .refl _, fun _ => .refl _, fun won => absurd won Bool.false_ne_true⟩
  exact ⟨shrinks_claimSecond_refused, fun _ => within_claimSecond torrent.blocks req peer,
    shrinks_claimSecond_clearSecond torrent.blocks req peer⟩

theorem spendHedge_blocks (eager : Bool) : (spendHedge torrent now eager).2.blocks = torrent.blocks := by
  rw [spendHedge]
  split
  · rw [takeSeekHedge]
    split
    · split <;> rfl
    · rfl
  · rfl

theorem claimCopy_spec (me : PeerKey) (now : Instant)
    (eager : Bool) : ClaimSpec req me torrent.blocks (claimCopy torrent req me now eager).1
    (claimCopy torrent req me now eager).2.blocks
    ((claimCopy torrent req me now eager).2.clearHedge req).blocks := by
  have claimed := claimHedge_spec (spendHedge torrent now eager).2 req me
  rw [spendHedge_blocks] at claimed
  rw [claimCopy]
  split
  · dsimp only
    split
    · exact claimed
    · exact claimed
  · dsimp only
    rw [spendHedge_blocks]
    exact ⟨fun _ => .refl _, fun _ => .refl _, fun won => absurd won Bool.false_ne_true⟩

theorem ClaimSpec.after_shrinks {req : Nat} {peer : PeerKey} {first before after undone : BlockTable}
    {won : Bool} (spec : ClaimSpec req peer before won after undone)
    (shrinks : BlockTable.Shrinks first before) : ClaimSpec req peer first won after undone where
  refused := fun lost => shrinks.trans (spec.refused lost)
  within := by
    intro covered
    apply (shrinks.mono fun _ _ => False.elim).trans
    apply spec.within
    rw [ChunkBits.covers_of_wordCount shrinks.wordCount]
    exact covered
  undone := fun gained => shrinks.trans (spec.undone gained)

theorem claimPicked_spec (now : Instant) (picked : Picked) :
    ClaimSpec picked.req session.conn.key session.torrent.blocks
    (session.claimPicked now picked).1 (session.claimPicked now picked).2.torrent.blocks
    ((session.claimPicked now picked).2.unclaimPicked picked).torrent.blocks := by
  rcases picked with ⟨req, take | take | take, sendOk⟩
  · exact claimRequest_spec session.torrent req session.conn.key now
  · have copied := claimCopy_spec session.torrent req session.conn.key now take
    cases take
    · exact copied
    · exact copied
  · exact (claimRequest_spec (session.torrent.releaseRequest req take) req session.conn.key
      now).after_shrinks (shrinks_release _ req take)

end

theorem honest_request {now : Instant} {picked : Picked} (may : session.MayRequest picked) :
    Honest session ((session.claimPicked now picked).2.sendRequest picked.req) := by
  rcases may.fits with ⟨info, known, inside⟩
  have gives : session.torrent.Sound -> BlockTable.Within
      (BlockTable.Gains picked.req session.conn.key) session.torrent.blocks
      (session.claimPicked now picked).2.torrent.blocks := by
    intro sound
    exact (claimPicked_spec session now picked).within (sound.sized info known _ inside)
  have asked : ∀ req, req ∈ session.conn.outstandingRequests \/ req = picked.req ->
      req ∈ session.conn.outstandingRequests.insert picked.req := by
    intro req either
    exact mem_insert_iff.mpr either.symm
  refine ⟨rfl, rfl, id, (onlyRequests_claimPicked session now picked).info, fun sound => ?_,
    fun sound owners copies tracked => ⟨?_, ?_⟩⟩
  · apply (gives sound).mono
    intro req peer gains
    exact ⟨gains.2, may.isOpen⟩
  · intro req owns
    rcases (gives sound).owner req session.conn.key owns with earlier | gains
    · refine (tracked.owner req earlier).imp_right fun tracks => ?_
      exact tracks.imp_left fun member => asked req (Or.inl member)
    · exact .inr (Or.inl (asked req (Or.inr gains.1)))
  · intro req copied
    rcases (gives sound).second req session.conn.key copied with earlier | gains
    · exact (tracked.second req earlier).imp_right fun member => asked req (Or.inl member)
    · exact .inr (asked req (Or.inr gains.1))

theorem honest_of_move (move : Move before after) : Honest before after := by
  cases move with
  | tune tuned =>
    exact .of_sameRequests tuned.remoteAddr tuned.dropped tuned.handleClosed rfl rfl
      tuned.outstandingRequests (congrArg (Option.map ChunkWrite.req) tuned.writing)
  | cancel now member => exact honest_cancelOutstanding now member
  | fill =>
    rw [fillHaveAll, onConn]
    split
    · exact .of_sameRequests rfl rfl id rfl rfl rfl rfl
    · exact .refl _
  | @refused now picked may lost =>
    refine .of_shrinks rfl rfl id (onlyRequests_claimPicked ..).info
      ((claimPicked_spec before now picked).refused lost) ?_ ?_
    · exact fun _ _ _ => id
    · exact fun _ _ _ => id
  | requested now may won => exact honest_request may
  | @unsent now picked may won =>
    have conn := (unclaimPicked_conn (before.claimPicked now picked).2 picked).trans
      (claimPicked_conn before now picked)
    refine .of_shrinks (congrArg Conn.remoteAddr conn) (congrArg Conn.dropped conn) ?_
      ((onlyRequests_unclaimPicked ..).info.trans (onlyRequests_claimPicked ..).info)
      ((claimPicked_spec before now picked).undone won) ?_ ?_
    · rw [conn]
      exact id
    · rw [conn]
      exact fun _ _ _ => id
    · rw [conn]
      exact fun _ _ _ => id
  | relinquished req => exact honest_relinquish before req
  | wasted req => exact honest_wasteChunk before req

theorem Moves.honest {first last : Session} (moves : Moves first last) : Honest first last := by
  induction moves with
  | refl => exact .refl _
  | next _ move ih => exact ih.trans (honest_of_move move)

theorem honest_announce (session : Session) (message : Message) :
    Honest session (session.announce message) := by
  have frame := announces_announce session message
  apply Honest.of_sameRequests
  · rw [frame.conn]
  · rw [frame.conn]
  · rw [frame.conn]
    exact id
  · rw [frame.torrent]
  · rw [frame.torrent]
  · rw [frame.conn]
  · rw [frame.conn]

/-- A reservation leaves the holds as they are. -/
theorem beginChunkWrite_spec : (torrent.beginChunkWrite req).2.info = torrent.info /\
    BlockTable.Shrinks torrent.blocks (torrent.beginChunkWrite req).2.blocks := by
  have reserved : BlockTable.Shrinks torrent.blocks (torrent.blocks.beginWrite req).2 :=
    shrinks_of_below (fun _ => .refl _) (fun _ _ => id) rfl
  rw [beginChunkWrite]
  split
  · exact ⟨rfl, .refl _⟩
  split
  · exact ⟨rfl, .refl _⟩
  · exact ⟨rfl, reserved⟩

theorem honest_startWrite (resting : session.conn.writing = none) : Honest session (session.startWrite write
      ((session.receiveChunk write.req).torrent.beginChunkWrite write.req).2) := by
  have received := receiveChunk_spec session write.req
  have reserved := beginChunkWrite_spec (session.receiveChunk write.req).torrent write.req
  apply Honest.of_shrinks
  · rfl
  · rfl
  · exact id
  · exact reserved.1.trans (onlyRequests_receiveChunk session write.req).info
  · exact received.1.trans reserved.2
  · rintro _ req _ (member | storing)
    · by_cases same : req = write.req
      · exact .inr (beq_iff_eq.mpr same.symm)
      · exact .inl (mem_filter.mpr ⟨member, bne_iff_ne.mpr same⟩)
    · rw [resting] at storing
      cases storing
  · intro _ req copies member
    have different : req ≠ write.req := by
      rintro rfl
      exact received.2 ((reserved.2.second _ _ copies).resolve_right id)
    exact mem_filter.mpr ⟨member, bne_iff_ne.mpr different⟩

/-- The end of a write gives up the block: a stored one is cleared, and one that
was not stored is released.  Its second copy was settled when it arrived. -/
theorem endWrite_spec (session : Session) (turn : Turn) (write : ChunkWrite) (ok : Bool) :
    BlockTable.Shrinks session.torrent.blocks (session.endWrite turn write ok).torrent.blocks /\
    ((session.endWrite turn write ok).torrent.blocks.get write.req).ownedBy session.conn.key = false := by
  have finished : BlockTable.Shrinks session.torrent.blocks (session.torrent.blocks.endWrite write.req) :=
    shrinks_of_below (fun _ => .refl _) (fun _ _ => id) rfl
  rw [endWrite_frame]
  cases ok with
  | true =>
    exact ⟨finished.trans (shrinks_clear _ write.req),
      ((not_holds_iff ..).mp (not_holds_clear _ write.req _)).1⟩
  | false =>
    exact ⟨finished.trans (shrinks_release _ write.req session.conn.key),
      not_ownedBy_release _ write.req session.conn.key⟩

theorem honest_endWrite (writing : session.conn.writing = some write)
    (turn : Turn) (ok : Bool) : Honest session (session.endWrite turn write ok) := by
  have ended := endWrite_spec session turn write ok
  apply Honest.of_shrinks
  · rfl
  · rfl
  · exact id
  · exact endWrite_info ..
  · exact ended.1
  · rintro _ req owns (member | storing)
    · exact .inl member
    · rw [writing] at storing
      have same : write.req = req := beq_iff_eq.mp storing
      subst same
      rw [ended.2] at owns
      cases owns
  · exact fun _ _ _ => id

theorem honest_of_acts {event : Event} {after : Session} (acts : Acts i event before after) :
    Honest before after := by
  cases acts with
  | message moves => exact (honest_announce _ _).trans moves.honest
  | ignored moves | woken moves | flagged _ moves => exact moves.honest
  | reserved resting => exact honest_startWrite resting
  | stored writing =>
    refine Honest.of_sameRequests rfl rfl id rfl rfl rfl ?_
    rw [writing]
    rfl
  | finished writing _ moves => exact (honest_endWrite writing _ _).trans moves.honest

end Session

/-! ## The whole swarm -/

namespace Swarm

/-- A connection that the torrent has not dropped, with the key of a peer. -/
def Connected (swarm : Swarm) (peer : PeerKey) (conn : Conn) : Prop :=
  conn ∈ swarm.conns /\ conn.dropped = false /\ conn.key = peer

structure Attributed (swarm : Swarm) : Prop where
  sound : swarm.torrent.Sound
  dropped : ∀ conn ∈ swarm.conns, conn.dropped = true -> conn.handleClosed = true
  owner : ∀ req peer, (swarm.torrent.blocks.get req).ownedBy peer = true ->
    Exists fun conn => swarm.Connected peer conn /\ conn.Tracks req
  second : ∀ req peer, (swarm.torrent.blocks.get req).second = some peer ->
    Exists fun conn => swarm.Connected peer conn /\ req ∈ conn.outstandingRequests

theorem attributed_init : Attributed {} where
  sound := by
    refine ⟨?_, ?_, fun _ => rfl⟩
    · nofun
    · nofun
  dropped := fun _ member => absurd member not_mem_nil
  owner := by
    intro req peer owns
    cases owns
  second := by
    intro req peer copies
    cases copies

/-- Some connection with the key of a peer, at a place other than `i`, has a
property. -/
def Elsewhere (swarm : Swarm) (i : Nat) (peer : PeerKey) (holds : Conn -> Prop) : Prop :=
  Exists fun j => Exists fun other => i ≠ j /\ swarm.conns[j]? = some other /\
    other.dropped = false /\ other.key = peer /\ holds other

variable {swarm : Swarm} {conn : Conn}

theorem elsewhere_or_here {peer : PeerKey} {holds : Conn -> Prop} (found : swarm.conns[i]? = some conn)
    (some : Exists fun other => swarm.Connected peer other /\ holds other) :
    swarm.Elsewhere i peer holds \/ (conn.dropped = false /\ conn.key = peer /\ holds conn) := by
  rcases some with ⟨other, ⟨member, isOpen, key⟩, has⟩
  rcases getElem?_of_mem member with ⟨j, at_j⟩
  by_cases here : i = j
  · subst here
    rw [found] at at_j
    cases at_j
    exact .inr ⟨isOpen, key, has⟩
  · exact .inl ⟨j, other, here, at_j, isOpen, key, has⟩

/-- A connection elsewhere is not changed by the handler at `i`. -/
theorem Elsewhere.after {peer : PeerKey} {holds : Conn -> Prop}
    (elsewhere : swarm.Elsewhere i peer holds) (session : Session) : Exists fun other =>
    Connected ⟨session.torrent, swarm.conns.set i session.conn⟩ peer other /\ holds other := by
  rcases elsewhere with ⟨j, other, apart, at_j, isOpen, key, has⟩
  refine ⟨other, ⟨?_, isOpen, key⟩, has⟩
  apply mem_of_getElem?
  rw [getElem?_set_ne apart]
  exact at_j

theorem Attributed.act (attributed : Attributed swarm) (found : swarm.conns[i]? = some conn)
    (honest : Session.Honest ⟨swarm.torrent, conn⟩ session) :
    Attributed ⟨session.torrent, swarm.conns.set i session.conn⟩ := by
  have within := honest.within attributed.sound
  have closed : conn.dropped = true -> conn.handleClosed = true :=
    attributed.dropped conn (mem_of_getElem? found)
  have here : session.conn ∈ swarm.conns.set i session.conn :=
    mem_set (List.getElem?_eq_some_iff.mp found).1 _
  have tracked : session.Tracked (fun req => swarm.Elsewhere i conn.key (fun other => other.Tracks req))
      (fun req => swarm.Elsewhere i conn.key (fun other => req ∈ other.outstandingRequests)) := by
    apply honest.tracked attributed.sound
    constructor
    · intro req owns
      have known := elsewhere_or_here found (attributed.owner req conn.key owns)
      exact known.imp_right fun mine => mine.2.2
    · intro req copies
      have known := elsewhere_or_here found (attributed.second req conn.key copies)
      exact known.imp_right fun mine => mine.2.2
  -- A peer gains a block only through an open connection of its own.
  have gains : ∀ peer, ¬ (conn.dropped = false /\ conn.key = peer) ->
      ¬ (peer = conn.key /\ conn.handleClosed = false) := by
    rintro peer foreign ⟨mine, isOpen⟩
    apply foreign
    refine ⟨?_, mine.symm⟩
    rw [<- Bool.not_eq_true]
    intro dropped
    rw [closed dropped] at isOpen
    cases isOpen
  have connected : conn.dropped = false ->
      Connected ⟨session.torrent, swarm.conns.set i session.conn⟩ conn.key session.conn := by
    intro isOpen
    exact ⟨here, honest.dropped.trans isOpen, honest.key⟩
  refine ⟨honest.sound attributed.sound, ?_, ?_, ?_⟩
  · intro other member dropped
    rcases mem_or_eq_of_mem_set member with old | new
    · exact attributed.dropped other old dropped
    subst new
    exact honest.handleClosed (closed (honest.dropped.symm.trans dropped))
  · intro req peer owns
    by_cases mine : conn.dropped = false /\ conn.key = peer
    · rcases mine with ⟨isOpen, rfl⟩
      rw [<- honest.key] at owns
      rcases tracked.owner req owns with elsewhere | tracks
      · exact elsewhere.after session
      · exact ⟨session.conn, connected isOpen, tracks⟩
    · have earlier := (within.owner req peer owns).resolve_right (gains peer mine)
      rcases elsewhere_or_here found (attributed.owner req peer earlier) with elsewhere | own
      · exact elsewhere.after session
      · exact absurd ⟨own.1, own.2.1⟩ mine
  · intro req peer copies
    by_cases mine : conn.dropped = false /\ conn.key = peer
    · rcases mine with ⟨isOpen, rfl⟩
      rw [<- honest.key] at copies
      rcases tracked.second req copies with elsewhere | waits
      · exact elsewhere.after session
      · exact ⟨session.conn, connected isOpen, waits⟩
    · have earlier := (within.second req peer copies).resolve_right (gains peer mine)
      rcases elsewhere_or_here found (attributed.second req peer earlier) with elsewhere | own
      · exact elsewhere.after session
      · exact absurd ⟨own.1, own.2.1⟩ mine

theorem Attributed.forget {after : Swarm} (attributed : Attributed swarm) {gone : PeerKey}
    (info : after.torrent.info = swarm.torrent.info)
    (shrinks : BlockTable.Shrinks swarm.torrent.blocks after.torrent.blocks)
    (free : ∀ req, after.torrent.blocks.holds req gone = false)
    (kept : ∀ peer conn, peer ≠ gone -> swarm.Connected peer conn ->
      Exists fun other => after.Connected peer other /\
      other.outstandingRequests = conn.outstandingRequests /\ other.writing = conn.writing)
    (dropped : ∀ conn ∈ after.conns, conn.dropped = true -> conn.handleClosed = true) : Attributed after := by
  refine ⟨attributed.sound.of_within info shrinks, dropped, ?_, ?_⟩
  · intro req peer owns
    have stays : peer ≠ gone := by
      rintro rfl
      rw [((not_holds_iff ..).mp (free req)).1] at owns
      cases owns
    have earlier := (shrinks.owner req peer owns).resolve_right id
    rcases attributed.owner req peer earlier with ⟨conn, connected, tracks⟩
    rcases kept peer conn stays connected with ⟨other, stillConnected, outstanding, writing⟩
    refine ⟨other, stillConnected, ?_⟩
    rw [Conn.Tracks, outstanding, writing]
    exact tracks
  · intro req peer copies
    have stays : peer ≠ gone := by
      rintro rfl
      exact ((not_holds_iff ..).mp (free req)).2 copies
    have earlier := (shrinks.second req peer copies).resolve_right id
    rcases attributed.second req peer earlier with ⟨conn, connected, waits⟩
    rcases kept peer conn stays connected with ⟨other, stillConnected, outstanding, _⟩
    refine ⟨other, stillConnected, ?_⟩
    rw [outstanding]
    exact waits

theorem onClosed_spec (session : Session) : session.onClosed.info = session.torrent.info /\
    BlockTable.Shrinks session.torrent.blocks session.onClosed.blocks /\
    ∀ req, session.onClosed.blocks.holds req session.conn.key = false := by
  have cleared := session.onClosed_induction (R := fun before after =>
      after.info = before.info /\ BlockTable.Shrinks before.blocks after.blocks)
    (fun _ => ⟨rfl, .refl _⟩)
    (fun earlier later => ⟨later.1.trans earlier.1, earlier.2.trans later.2⟩)
    (fun torrent req => ⟨rfl, shrinks_clearOwner torrent.blocks req⟩)
    (fun _ => ⟨rfl, shrinks_forgetPeer _ _⟩)
  refine ⟨cleared.1.trans ?_, ?_, fun req => not_holds_forgetPeer _ _ req⟩
  · split <;> rfl
  · revert cleared
    split <;> exact fun cleared => cleared.2

section
variable (attributed : Attributed swarm)
include attributed

theorem Attributed.closed (found : swarm.conns[i]? = some conn) : Attributed {
        torrent := Session.onClosed ⟨swarm.torrent, conn⟩
        conns := (swarm.conns.eraseIdx i).map (retireConnection conn.remoteAddr) } := by
  have retired : ∀ other : Conn, (retireConnection conn.remoteAddr other).dropped = other.dropped /\
        (retireConnection conn.remoteAddr other).handleClosed = other.handleClosed /\
        (retireConnection conn.remoteAddr other).key = other.key /\
        (retireConnection conn.remoteAddr other).outstandingRequests = other.outstandingRequests /\
        (retireConnection conn.remoteAddr other).writing = other.writing := by
    intro other
    rw [retireConnection]
    split <;> exact ⟨rfl, rfl, rfl, rfl, rfl⟩
  rcases onClosed_spec ⟨swarm.torrent, conn⟩ with ⟨info, shrinks, free⟩
  refine attributed.forget info shrinks free ?_ ?_
  · rintro peer other stays ⟨member, isOpen, key⟩
    rcases retired other with ⟨dropped, _, sameKey, outstanding, writing⟩
    refine ⟨retireConnection conn.remoteAddr other, ⟨?_, ?_⟩, outstanding, writing⟩
    · rcases getElem?_of_mem member with ⟨j, at_j⟩
      apply mem_map_of_mem
      apply mem_eraseIdx_iff_getElem?.mpr
      refine ⟨j, ?_, at_j⟩
      rintro rfl
      rw [found] at at_j
      cases at_j
      exact stays key.symm
    · exact ⟨dropped.trans isOpen, sameKey.trans key⟩
  · intro after member dropped
    rcases mem_map.mp member with ⟨other, old, rfl⟩
    rcases retired other with ⟨sameDropped, sameClosed, _⟩
    rw [sameClosed]
    exact attributed.dropped other (mem_of_mem_eraseIdx old) (sameDropped.symm.trans dropped)

theorem Attributed.dropConn (addr : SocketAddr) : Attributed
      { torrent := swarm.torrent.forgetPeer (peerKeyFromAddr addr)
        conns := swarm.conns.map (dropRegistered addr) } := by
  have shrinks := swarm.torrent.blocks.shrinks_forgetPeer (peerKeyFromAddr addr)
  have free := swarm.torrent.blocks.not_holds_forgetPeer (peerKeyFromAddr addr)
  refine attributed.forget (by rfl) shrinks free ?_ ?_
  · rintro peer other stays ⟨member, isOpen, key⟩
    have untouched : dropRegistered addr other = other := by
      apply if_neg
      rw [Bool.and_eq_true]
      rintro ⟨_, same⟩
      apply stays
      rw [<- key, Conn.key, beq_iff_eq.mp same]
    refine ⟨other, ⟨?_, isOpen, key⟩, rfl, rfl⟩
    rw [<- untouched]
    exact mem_map_of_mem member
  · intro conn member dropped
    rcases mem_map.mp member with ⟨other, old, rfl⟩
    rw [dropRegistered] at dropped ⊢
    split
    · rfl
    next neither =>
      rw [if_neg neither] at dropped
      exact attributed.dropped other old dropped

theorem Attributed.onTorrent {change : Torrent -> Torrent}
    (info : (change swarm.torrent).info = swarm.torrent.info)
    (blocks : (change swarm.torrent).blocks = swarm.torrent.blocks) :
    Attributed (swarm.onTorrent change) where
  sound := by
    apply attributed.sound.of_within info
    rw [blocks]
    exact (BlockTable.Within.refl _ : BlockTable.Shrinks _ _)
  dropped := attributed.dropped
  owner := by
    intro req peer owns
    rw [Swarm.onTorrent, blocks] at owns
    exact attributed.owner req peer owns
  second := by
    intro req peer copies
    rw [Swarm.onTorrent, blocks] at copies
    exact attributed.second req peer copies

theorem Attributed.attach (isOpen : conn.dropped = false) :
    Attributed { swarm with conns := swarm.conns ++ [conn] } := by
  have stays : ∀ peer other, swarm.Connected peer other ->
      Connected { swarm with conns := swarm.conns ++ [conn] } peer other := by
    rintro peer other ⟨member, rest⟩
    exact ⟨mem_append_left _ member, rest⟩
  refine ⟨attributed.sound, ?_, ?_, ?_⟩
  · intro other member dropped
    rcases mem_append.mp member with old | new
    · exact attributed.dropped other old dropped
    rw [mem_singleton.mp new, isOpen] at dropped
    cases dropped
  · intro req peer owns
    rcases attributed.owner req peer owns with ⟨other, connected, tracks⟩
    exact ⟨other, stays peer other connected, tracks⟩
  · intro req peer copies
    rcases attributed.second req peer copies with ⟨other, connected, waits⟩
    exact ⟨other, stays peer other connected, waits⟩

theorem Attributed.setInfo (unknown : swarm.torrent.info = none)
    (info : Info) (complete : Nat -> Bool) (downloadAll : Bool) (live : List (Finset Nat)) :
    Attributed (swarm.onTorrent (fun torrent => torrent.setInfo info complete downloadAll live)) := by
  have blocks := swarm.torrent.setInfo_blocks info complete downloadAll live
  refine ⟨?_, attributed.dropped, ?_, ?_⟩
  · exact sound_setInfo attributed.sound unknown rfl blocks
  · intro req peer owns
    rw [Swarm.onTorrent, blocks] at owns
    exact attributed.owner req peer owns
  · intro req peer copies
    rw [Swarm.onTorrent, blocks] at copies
    exact attributed.second req peer copies

theorem attributed_step {after : Swarm} {event : Event}
    (taken : swarm.step event = some after) : Attributed after := by
  have change := step_change taken
  cases change with
  | attach => exact attributed.attach rfl
  | act found acts => exact attributed.act found (Session.honest_of_acts acts)
  | closed found _ => exact attributed.closed found
  | dropConn => exact attributed.dropConn _
  | setInfo unknown => exact attributed.setInfo unknown _ _ _ _
  | hashResult =>
    apply attributed.onTorrent
    · rw [applyHashResult_frame]
    · rw [applyHashResult_frame]
  | refreshPiece =>
    apply attributed.onTorrent
    · rw [refreshPieceCompletion_frame]
    · rw [refreshPieceCompletion_frame]
  | setPriority | openSeekWindow | setDownloadDisallowed | closeTorrent => exact attributed.onTorrent rfl rfl

end

/-- Every block that the table assigns to a peer is one that an open connection
of the peer waits for or is storing at the moment.  In particular no block is
assigned to a peer without an open connection. -/
def NoOrphans (swarm : Swarm) : Prop :=
  ∀ req peer, swarm.torrent.blocks.holds req peer = true ->
    Exists fun conn => swarm.Connected peer conn /\ conn.Tracks req

theorem attributed_of_run {permitted : Swarm -> Event -> Prop} {events : List Event}
    (run : machine.RunsTo permitted events swarm) : swarm.Attributed := by
  apply run.stateInvariant
  · rintro start rfl
    exact attributed_init
  · intro state event after attributed _ taken
    exact attributed_step attributed taken

/-- No request is orphaned, in any run. -/
theorem noOrphans_of_run (events : List Event) (swarm : Swarm)
    (run : machine.RunsTo always events swarm) : swarm.NoOrphans := by
  intro req peer holds
  have attributed := attributed_of_run run
  rcases (holds_iff ..).mp holds with owns | copies
  · exact attributed.owner req peer owns
  rcases attributed.second req peer copies with ⟨conn, connected, waits⟩
  exact ⟨conn, connected, Or.inl waits⟩

def blockAsked : List Event :=
  [.attach { ip := .v4 0x01000193#32, port := 6881 } none true,
    .setInfo { pieceLength := 1, totalLength := 1 } [] true, .message 0 {} .haveAll,
    .message 0 { queueLimit := 5, pick := [{ req := 0, take := .free }] } .unchoke]

theorem noOrphans_after_blockAsked : Exists fun swarm => machine.RunsTo always blockAsked swarm ∧
      swarm.torrent.blocks.holds 0 0x010001931ae1 = true ∧ swarm.NoOrphans := by
  have run : machine.RunsTo always blockAsked ((machine.exec {} blockAsked).get (by decide)) :=
    .of_exec_isSome rfl (permits_always _ _ _) _
  exact ⟨_, run, by decide, noOrphans_of_run _ _ run⟩

/-- The same with a second peer at `::100`, whose key is that of `1.0.1.147`. -/
def blockAskedOfNamesake : List Event :=
  .attach { ip := .v6 [0, 0, 0, 0, 0, 0, 0, 0, 0, 0, 0, 0, 0, 0, 1, 0], port := 6881 } none true ::
    blockAsked

theorem namesake_does_not_wait : ¬ forall (events : List Event) (swarm : Swarm),
      machine.RunsTo always events swarm -> forall conn, conn ∈ swarm.conns ->
      conn.dropped = false -> forall req, swarm.torrent.blocks.holds req conn.key = true ->
      conn.Tracks req := by
  intro waits
  have run : machine.RunsTo always blockAskedOfNamesake
      ((machine.exec {} blockAskedOfNamesake).get (by decide)) :=
    .of_exec_isSome rfl (permits_always _ _ _) _
  -- The block was asked of the first connection, and the second one has its key.
  have wrong := waits _ _ run (((machine.exec {} blockAskedOfNamesake).get (by decide)).conns.get
    ⟨1, by decide⟩) (get_mem _ _) (by decide) 0 (by decide)
  exact absurd wrong (by unfold Conn.Tracks; decide)

end Swarm
end TorrentPlayer.Core
