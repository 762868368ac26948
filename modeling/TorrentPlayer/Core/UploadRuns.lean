import TorrentPlayer.Core.Uploads

namespace TorrentPlayer.Core

open Library UploadConn List Option Torrent

/-!
# What is uploaded, and to whom

Two gates are missing from `handle_request`.  It never asks whether a piece is
complete, so blocks of a piece that was not verified go out as well; and the
set that lets a choked peer through is the one that the peer fills itself.

Each of the two properties is proved for the runs that stay clear of its
missing gate.  The rest of the path keeps them: what is read is what was asked
for, and a read that is put off is answered as it would have been at once.
-/

/-- The data is the part of the piece that was asked for. -/
def Upload.Exact (upload : Upload) : Prop :=
  upload.data = (List.range upload.length.toNat).map (fun k => upload.source (upload.start.toNat + k))

theorem Upload.Exact.length {upload : Upload} (whole : upload.Exact) :
    upload.data.length = upload.length.toNat := by
  rw [whole, length_map, length_range]

variable {piece : Nat} {torrent : Torrent} {index : UInt32} {before after : UploadConn}

theorem readAt_of_inRange {info : Info} {start length : Nat}
    (inRange : outOfRange info piece start length = false) (stored : Stored) :
    readAt info stored piece start length = (List.range length).map (fun k => stored piece (start + k)) := by
  unfold outOfRange at inRange
  rw [Bool.or_eq_false_iff, decide_eq_false_iff_not, decide_eq_false_iff_not] at inRange
  unfold readAt
  split
  · have nothing : length = 0 := by omega
    rw [nothing]
    rfl
  · rw [Nat.min_eq_right (by omega)]

namespace UploadConn

variable {stored : Stored}

theorem readChunkInMemory_ok {start length : UInt32} {ram : RamRead} {data : List UInt8}
    (read : readChunkInMemory torrent stored index.toNat start.toNat length.toNat ram = some (.ok data))
    (choked : Bool) : (readBlock torrent stored index start length choked data).Exact := by
  unfold readChunkInMemory at read
  split at read
  · cases read
  split at read
  · cases read
  rename_i inRange
  split at read
  · cases read
  · have same := Except.ok.inj (Option.some.inj read)
    rw [<- same]
    exact readAt_of_inRange (Bool.eq_false_iff.mpr inRange) stored
  · cases read

theorem readChunk_ok {start length : UInt32} {failure : Option String} {data : List UInt8}
    (read : readChunk torrent stored index.toNat start.toNat length.toNat failure = .ok data)
    (choked : Bool) : (readBlock torrent stored index start length choked data).Exact := by
  unfold readChunk at read
  split at read
  · cases read
  split at read
  · cases read
  rename_i inRange
  split at read
  · cases read
  have same := Except.ok.inj read
  rw [<- same]
  exact readAt_of_inRange (Bool.eq_false_iff.mpr inRange) stored

theorem handleRequest_cases (torrent : Torrent) (stored : Stored) (conn : UploadConn)
    (index start length : UInt32) (turn : RequestTurn) :
    let outcome := conn.handleRequest torrent stored index start length turn
    (outcome = (none, conn.sendMessage (.reject index start length)) /\
      conn.passes index turn.policy = false) \/ conn.passes index turn.policy = true /\
      ((Exists fun data : List UInt8 =>
          (readBlock torrent stored index start length conn.amChoking data).Exact /\
            outcome = (none, { conn with queuedUploads := conn.queuedUploads + 1 }.sendPiece
              (readBlock torrent stored index start length conn.amChoking data))) \/
        (Exists fun error : CoreError => outcome =
            (some error, { conn with queuedUploads := conn.queuedUploads + 1 }.releaseUpload)) \/
        outcome = (none, { conn with
            queuedUploads := conn.queuedUploads + 1
            reads := conn.reads ++ [⟨index, start, length, conn.amChoking⟩] })) := by
  unfold handleRequest passes
  dsimp only
  by_cases choked : (conn.amChoking && !decide (index ∈ conn.peerAllowedFast)) = true
  · rw [if_pos choked, choked]
    exact .inl ⟨rfl, rfl⟩
  rw [if_neg choked]
  by_cases refused : (!uploadAllowed turn.policy true) = true
  · rw [if_pos refused]
    have no : uploadAllowed turn.policy true = false := by simpa using refused
    refine .inl ⟨rfl, ?_⟩
    rw [no, Bool.and_false, Bool.false_and]
  rw [if_neg refused]
  by_cases full : localClientReqq <= conn.queuedUploads
  · rw [if_pos full]
    refine .inl ⟨rfl, ?_⟩
    rw [decide_eq_false (Nat.not_lt.mpr full), Bool.and_false]
  rw [if_neg full]
  have unchoked : (conn.amChoking && !decide (index ∈ conn.peerAllowedFast)) = false :=
    Bool.eq_false_iff.mpr choked
  have allowed : uploadAllowed turn.policy true = true := by simpa using refused
  refine .inr ⟨?_, ?_⟩
  · rw [unchoked, allowed, decide_eq_true (Nat.lt_of_not_le full)]
    rfl
  split
  · rename_i data read
    exact .inl ⟨data, readChunkInMemory_ok read _, rfl⟩
  · rename_i error _
    exact .inr (Or.inl ⟨error, rfl⟩)
  · split
    · exact .inr (Or.inr rfl)
    split
    · rename_i data read
      exact .inl ⟨data, readChunk_ok read _, rfl⟩
    · rename_i error _
      exact .inr (Or.inl ⟨error, rfl⟩)

/-! ## What the steps of a connection add -/

/-- `after` has at most one message more than `before`, which is a block only if
`allowed` holds of it, and no new reads but such as `later` allows. -/
structure Adds (allowed : Upload -> Prop) (later : PendingRead -> Prop)
    (before after : UploadConn) : Prop where
  pieces : ∀ upload, .piece upload ∈ after.outbox -> .piece upload ∈ before.outbox ∨ allowed upload
  reads : ∀ read ∈ after.reads, read ∈ before.reads ∨ later read
  grants : ∀ index, .allowedFast index ∈ before.outbox -> .allowedFast index ∈ after.outbox

variable {allowed : Upload -> Prop} {later : PendingRead -> Prop}

theorem Adds.of_same (outbox : after.outbox = before.outbox) (reads : after.reads = before.reads) :
    Adds allowed later before after := by
  refine ⟨fun upload sent => ?_, fun read pending => ?_, fun index granted => ?_⟩
  · rw [outbox] at sent
    exact .inl sent
  · rw [reads] at pending
    exact .inl pending
  · rw [outbox]
    exact granted

theorem Adds.message {message : Outgoing}
    (reads : after.reads = before.reads) (outbox : after.outbox = before.outbox ++ [message])
    (permits : ∀ upload, message = .piece upload -> allowed upload) : Adds allowed later before after := by
  refine ⟨fun upload sent => ?_, fun read pending => ?_, fun index granted => ?_⟩
  · rw [outbox, mem_append, mem_singleton] at sent
    rcases sent with earlier | now
    · exact .inl earlier
    · exact .inr (permits upload now.symm)
  · rw [reads] at pending
    exact .inl pending
  · rw [outbox]
    exact mem_append_left _ granted

variable (conn : UploadConn)

theorem adds_sendMessage {message : Outgoing}
    (permits : ∀ upload, message = .piece upload -> allowed upload) :
    Adds allowed later conn (conn.sendMessage message) := by
  unfold sendMessage
  split
  · exact .of_same rfl rfl
  · exact .message rfl rfl permits

theorem adds_sendPiece {upload : Upload} (permits : allowed upload) :
    Adds allowed later conn (conn.sendPiece upload) := by
  unfold sendPiece
  split
  · exact .of_same rfl rfl
  apply adds_sendMessage
  intro other same
  rw [<- Outgoing.piece.inj same]
  exact permits

theorem adds_request {start length : UInt32} {turn : RequestTurn}
    (block : conn.passes index turn.policy = true -> ∀ upload : Upload, upload.Exact ->
      upload.index = index -> upload.choked = conn.amChoking ->
      upload.complete = torrent.pieceComplete index.toNat -> allowed upload)
    (putOff : conn.passes index turn.policy = true ->
      later ⟨index, start, length, conn.amChoking⟩) : Adds allowed later conn
    (afterHandler (conn.handleRequest torrent stored index start length turn)) := by
  rcases handleRequest_cases torrent stored conn index start length turn with
    ⟨rejected, _⟩ | ⟨passed, ⟨data, whole, sent⟩ | ⟨error, failed⟩ | delayed⟩
  · rw [rejected]
    exact adds_sendMessage conn fun _ same => Outgoing.noConfusion same
  · rw [sent]
    have permits := block passed _ whole rfl rfl rfl
    have added : Adds allowed later { conn with queuedUploads := conn.queuedUploads + 1 } _ :=
      adds_sendPiece _ permits
    exact ⟨added.pieces, added.reads, added.grants⟩
  · rw [failed]
    exact .of_same rfl rfl
  · rw [delayed]
    refine ⟨fun _ earlier => Or.inl earlier, fun read pending => ?_, fun _ granted => granted⟩
    have split : read ∈ conn.reads ++ [⟨index, start, length, conn.amChoking⟩] := pending
    rw [mem_append, mem_singleton] at split
    rcases split with earlier | now
    · exact .inl earlier
    rw [now]
    exact .inr (putOff passed)

theorem adds_finishRead (k : Nat) (failure : Option String)
    (block : ∀ read ∈ conn.reads, ∀ upload : Upload, upload.Exact ->
      upload.index = read.index -> upload.choked = read.choked ->
      upload.complete = torrent.pieceComplete read.index.toNat -> allowed upload) :
    Adds allowed later conn (conn.finishRead torrent stored k failure) := by
  unfold finishRead
  split
  · exact .of_same rfl rfl
  rename_i read found
  have member : read ∈ conn.reads := mem_of_getElem? found
  have fewer : ∀ other ∈ conn.reads.eraseIdx k, other ∈ conn.reads :=
    fun other kept => mem_of_mem_eraseIdx kept
  split
  · rename_i data finished
    have permits := block read member _ (readChunk_ok finished read.choked) rfl rfl rfl
    have added : Adds allowed later { conn with reads := conn.reads.eraseIdx k } _ :=
      adds_sendPiece _ permits
    refine ⟨added.pieces, fun other pending => ?_, added.grants⟩
    rcases added.reads other pending with kept | new
    · exact .inl (fewer other kept)
    · exact .inr new
  · exact ⟨fun _ sent => Or.inl sent, fun other pending => Or.inl (fewer other pending),
      fun _ granted => granted⟩

theorem adds_reconcileChoke (policy : UploadPolicy) (wanted : Bool) :
    Adds allowed later conn (conn.reconcileChoke policy wanted) := by
  unfold reconcileChoke
  dsimp only
  split
  · exact .of_same rfl rfl
  have noBlock : ∀ upload, (if !uploadAllowed policy wanted then Outgoing.choke
      else .unchoke) = .piece upload -> allowed upload := by
    intro upload same
    split at same <;> cases same
  have added : Adds allowed later
      { conn with amChoking := !uploadAllowed policy wanted } _ :=
    adds_sendMessage _ noBlock
  exact ⟨added.pieces, added.reads, added.grants⟩

theorem adds_write : Adds allowed later conn conn.write := by
  unfold write
  split <;> exact .of_same rfl rfl

end UploadConn

namespace Seeder

variable {seeder : Seeder} {change : UploadConn -> UploadConn}

theorem forall_onConn {conn : Nat} {property : UploadConn -> Prop} (all : ∀ c ∈ seeder.conns, property c)
    (here : ∀ c, seeder.conns[conn]? = some c -> property (change c)) :
    ∀ c ∈ (seeder.onConn conn change).conns, property c := by
  intro c member
  rcases mem_iff_getElem?.mp member with ⟨i, found⟩
  have modified : (seeder.conns.modify conn change)[i]? = some c := found
  rw [getElem?_modify] at modified
  rcases map_eq_some_iff.mp modified with ⟨old, foundOld, rfl⟩
  by_cases same : conn = i
  · rw [if_pos same]
    rw [<- same] at foundOld
    exact here old foundOld
  · rw [if_neg same]
    exact all old (mem_of_getElem? foundOld)

def NotReading (seeder : Seeder) (piece : Nat) : Prop :=
  ∀ conn ∈ seeder.conns, ∀ read ∈ conn.reads, read.index.toNat ≠ piece

/-- Only complete pieces are asked for, and a piece is not taken back while a
block of it is to be read from disk. -/
def AsksComplete (seeder : Seeder) : SeederEvent -> Prop
  | .request conn index _ _ turn =>
    ∀ c, seeder.conns[conn]? = some c -> c.passes index turn.policy = true ->
      seeder.torrent.pieceComplete index.toNat = true
  | .hashResult piece valid => valid = true ∨ seeder.NotReading piece
  | .refreshPiece piece complete _ => complete = true ∨ seeder.NotReading piece
  | .attach | .finishRead _ _ _ | .allowedFast _ _ | .reconcileChoke _ _ _ | .write _
  | .closeHandle _ | .setInfo _ _ _ | .storeBlock _ _ _ _ | .queuePieceHash _ _ | .replace _ _ =>
    True

/-- What was sent was complete when it was read, and what is still to be read
is complete. -/
structure Clean (torrent : Torrent) (conn : UploadConn) : Prop where
  sent : ∀ upload, .piece upload ∈ conn.outbox -> upload.complete = true /\ upload.Exact
  pending : ∀ read ∈ conn.reads, torrent.pieceComplete read.index.toNat = true

theorem Clean.of_adds (clean : Clean torrent before)
    (adds : UploadConn.Adds (fun upload => upload.complete = true /\ upload.Exact)
      (fun read => torrent.pieceComplete read.index.toNat = true) before after) :
    Clean torrent after := by
  refine ⟨fun upload sent => ?_, fun read pending => ?_⟩
  · rcases adds.pieces upload sent with earlier | now
    · exact clean.sent upload earlier
    · exact now
  · rcases adds.reads read pending with earlier | now
    · exact clean.pending read earlier
    · exact now

theorem Clean.onTorrent {after : Torrent} {conn : UploadConn} (clean : Clean torrent conn)
    (keeps : ∀ read ∈ conn.reads, torrent.pieceComplete read.index.toNat = true ->
      after.pieceComplete read.index.toNat = true) : Clean after conn :=
  ⟨clean.sent, fun read member => keeps read member (clean.pending read member)⟩

def Grounded (torrent : Torrent) : Prop :=
  torrent.info = none -> torrent.pieces = []

structure AllClean (seeder : Seeder) : Prop where
  conns : ∀ conn ∈ seeder.conns, Clean seeder.torrent conn
  grounded : Grounded seeder.torrent

variable {other : Nat} {kind : PieceEntry -> PieceEntry -> Prop}

theorem pieceComplete_of_edits {before after : Torrent} (edits : Torrent.Edits piece kind before after)
    (keeps : other = piece -> ∀ old entry, kind old entry -> old.complete = true -> entry.complete = true)
    (complete : before.pieceComplete other = true) : after.pieceComplete other = true := by
  rw [Torrent.pieceComplete, Option.any_eq_true] at *
  rcases complete with ⟨old, found, whole⟩
  rcases edits.entry_after found with ⟨entry, there, same | ⟨here, changed⟩⟩
  · rw [same] at there
    exact ⟨old, there, whole⟩
  · exact ⟨entry, there, keeps here old entry changed whole⟩

section
variable (complete : torrent.pieceComplete piece = true)
include complete

theorem pieceComplete_finishChunkWrite (req : Nat) (written : Bool) :
    (torrent.finishChunkWrite req written).pieceComplete piece = true := by
  apply pieceComplete_of_edits (torrent.finishChunkWrite_edits req written) _ complete
  intro _ old entry changed whole
  rw [changed]
  exact whole

theorem pieceComplete_queuePieceHash (other : Nat) (queued : Bool) :
    (torrent.queuePieceHash other queued).pieceComplete piece = true := by
  apply pieceComplete_of_edits (torrent.queuePieceHash_edits other queued) _ complete
  intro _ old entry changed whole
  rw [changed]
  exact whole

theorem pieceComplete_applyHashResult {valid : Bool} (keeps : valid = true \/ piece ≠ other) :
    (torrent.applyHashResult other valid).pieceComplete piece = true := by
  apply pieceComplete_of_edits (torrent.applyHashResult_edits other valid) _ complete
  intro here old entry changed _
  rw [changed]
  exact keeps.resolve_right fun differs => differs here

theorem pieceComplete_refreshPieceCompletion {storageComplete readable : Bool}
    (keeps : storageComplete = true \/ piece ≠ other) :
    (torrent.refreshPieceCompletion other storageComplete readable).pieceComplete piece = true := by
  apply pieceComplete_of_edits
    (torrent.refreshPieceCompletion_edits other storageComplete readable) _ complete
  intro here old entry changed _
  rw [changed]
  exact keeps.resolve_right fun differs => differs here

end

theorem Grounded.of_edits {after : Torrent}
    (grounded : Grounded torrent) (edits : Torrent.Edits piece kind torrent after) : Grounded after := by
  intro unknown
  rw [edits.info] at unknown
  have none : after.pieces.length = 0 := by rw [edits.length, grounded unknown, length_nil]
  exact length_eq_zero_iff.mp none

/-! ### Runs -/

theorem AllClean.onConn (clean : seeder.AllClean) {conn : Nat}
    (adds : ∀ c, seeder.conns[conn]? = some c -> Clean seeder.torrent c ->
      UploadConn.Adds (fun upload => upload.complete = true /\ upload.Exact)
      (fun read => seeder.torrent.pieceComplete read.index.toNat = true) c (change c)) :
    (seeder.onConn conn change).AllClean := by
  refine ⟨forall_onConn clean.conns (fun c found => ?_), clean.grounded⟩
  have before := clean.conns c (mem_of_getElem? found)
  exact before.of_adds (adds c found before)

theorem AllClean.onTorrent (clean : seeder.AllClean) {after : Torrent} (grounded : Grounded after)
    (keeps : ∀ conn ∈ seeder.conns, ∀ read ∈ conn.reads,
      seeder.torrent.pieceComplete read.index.toNat = true ->
      after.pieceComplete read.index.toNat = true) : AllClean { seeder with torrent := after } :=
  ⟨fun conn member => (clean.conns conn member).onTorrent (keeps conn member), grounded⟩

theorem allClean_step {after : Seeder} {event : SeederEvent} (clean : seeder.AllClean)
    (asks : seeder.AsksComplete event) (taken : seeder.step event = some after) : after.AllClean := by
  cases event with
  | attach =>
    cases taken
    exact ⟨forall_mem_append.mpr ⟨clean.conns, forall_mem_singleton.mpr ⟨nofun, nofun⟩⟩, clean.grounded⟩
  | request =>
    cases taken
    apply clean.onConn
    intro c found _
    apply adds_request
    · intro passed upload whole _ _ complete
      rw [complete]
      exact ⟨asks c found passed, whole⟩
    · intro passed
      exact asks c found passed
  | finishRead =>
    cases taken
    apply clean.onConn
    intro c _ before
    apply adds_finishRead
    intro read member upload whole _ _ complete
    rw [complete]
    exact ⟨before.pending read member, whole⟩
  | allowedFast | closeHandle =>
    cases taken
    exact clean.onConn fun c _ _ => .of_same rfl rfl
  | reconcileChoke conn policy wanted =>
    cases taken
    exact clean.onConn fun c _ _ => c.adds_reconcileChoke policy wanted
  | write =>
    cases taken
    exact clean.onConn fun c _ _ => c.adds_write
  | setInfo =>
    rcases ite_none_left_eq_some.mp taken with ⟨unset, ⟨⟩⟩
    have unknown : seeder.torrent.info = none := by simpa using unset
    refine clean.onTorrent (fun none => ?_) fun conn member read pending whole => ?_
    · cases none
    · rw [Torrent.pieceComplete, clean.grounded unknown] at whole
      cases whole
  | storeBlock req =>
    cases taken
    exact ⟨fun conn member => (clean.conns conn member).onTorrent (fun _ _ whole =>
      pieceComplete_finishChunkWrite whole req true), clean.grounded.of_edits (finishChunkWrite_edits ..)⟩
  | queuePieceHash piece queued =>
    cases taken
    exact clean.onTorrent (clean.grounded.of_edits (queuePieceHash_edits ..))
      (fun _ _ _ _ whole => pieceComplete_queuePieceHash whole piece queued)
  | hashResult =>
    cases taken
    refine clean.onTorrent (clean.grounded.of_edits (applyHashResult_edits ..))
      (fun conn member read pending whole => pieceComplete_applyHashResult whole ?_)
    rcases asks with good | notReading
    · exact .inl good
    · exact .inr (notReading conn member read pending)
  | refreshPiece =>
    cases taken
    refine clean.onTorrent (clean.grounded.of_edits (refreshPieceCompletion_edits ..))
      (fun conn member read pending whole => pieceComplete_refreshPieceCompletion whole ?_)
    rcases asks with good | notReading
    · exact .inl good
    · exact .inr (notReading conn member read pending)
  | replace =>
    cases taken
    exact ⟨clean.conns, clean.grounded⟩

/-- How a request is answered: by nothing, by a reject of just this block, or by
just this block. -/
def Answered (index start length : UInt32) (before after : UploadConn) : Prop :=
  after.outbox = before.outbox ∨ after.outbox = before.outbox ++ [.reject index start length] ∨
    Exists fun upload : Upload =>
      upload.index = index /\ upload.start = start /\ upload.length = length /\
        after.outbox = before.outbox ++ [.piece upload]

theorem answered_request (torrent : Torrent) (stored : Stored) (conn : UploadConn)
    (index start length : UInt32) (turn : RequestTurn) : Answered index start length conn
    (afterHandler (conn.handleRequest torrent stored index start length turn)) := by
  rcases handleRequest_cases torrent stored conn index start length turn with
    ⟨rejected, _⟩ | ⟨_, ⟨data, _, sent⟩ | ⟨error, failed⟩ | delayed⟩
  · rw [rejected, afterHandler, sendMessage]
    dsimp only
    split
    · exact .inl rfl
    · exact .inr (Or.inl rfl)
  · rw [sent, afterHandler, sendPiece]
    dsimp only
    split
    · exact .inl rfl
    rename_i stillOpen
    refine .inr (Or.inr ⟨readBlock torrent stored index start length conn.amChoking data,
        rfl, rfl, rfl, ?_⟩)
    rw [sendMessage, if_neg stillOpen]
  · rw [failed]
    exact .inl rfl
  · rw [delayed]
    exact .inl rfl

/-- In every run in which peers ask for complete pieces only, and no piece is
taken back while a block of it waits for the disk, every block that is sent is
exactly what was asked for, of a piece that was complete when it was read; and
a request is answered by its block, by a reject, or not at all. -/
theorem uploads_verified_of_asksComplete {events : List SeederEvent} {seeder : Seeder}
    (run : machine.RunsTo AsksComplete events seeder) :
    (forall conn, conn ∈ seeder.conns -> forall upload, .piece upload ∈ conn.outbox ->
      upload.complete = true ∧ upload.data.length = upload.length.toNat ∧ upload.Exact) ∧
    forall conn, conn ∈ seeder.conns -> forall index start length turn,
      Answered index start length conn (afterHandler
          (conn.handleRequest seeder.torrent seeder.stored index start length turn)) := by
  have clean : seeder.AllClean := by
    refine run.stateInvariant ?_ ?_
    · intro state initial
      rw [initial]
      exact ⟨nofun, fun _ => rfl⟩
    · intro state event after invariant asks taken
      exact allClean_step invariant asks taken
  refine ⟨fun conn member upload sent => ?_, fun conn _ index start length turn =>
    answered_request _ _ conn index start length turn⟩
  have fine := (clean.conns conn member).sent upload sent
  exact ⟨fine.1, fine.2.length, fine.2⟩

/-- A complete piece of four bytes is served to a peer that was let in. -/
def serveComplete : List SeederEvent :=
  [.setInfo ⟨4, 4⟩ [0] false, .attach, .reconcileChoke 0 {} true, .request 0 0 1 2 {}]

theorem uploads_verified_serveComplete :
    Exists fun seeder : Seeder => machine.RunsTo AsksComplete serveComplete seeder ∧
      Exists fun conn : UploadConn => conn ∈ seeder.conns ∧
        Exists fun upload : Upload => .piece upload ∈ conn.outbox ∧
          upload.complete = true ∧ upload.data.length = 2 := by
  have run : machine.RunsTo AsksComplete serveComplete ((machine.exec {} serveComplete).getD {}) := by
    refine .of_exec rfl ⟨trivial, trivial, trivial, ⟨?_, trivial⟩⟩ rfl
    intro c _ _
    rfl
  have verified := (uploads_verified_of_asksComplete run).1
  have served : Exists fun conn : UploadConn =>
      conn ∈ ((machine.exec {} serveComplete).getD {}).conns /\
        Exists fun upload : Upload => .piece upload ∈ conn.outbox /\ upload.length = 2 :=
    ⟨_, mem_cons_self, _, mem_cons_of_mem _ mem_cons_self, rfl⟩
  rcases served with ⟨conn, member, upload, sent, asked⟩
  have fine := verified conn member upload sent
  rw [asked] at fine
  exact ⟨_, run, conn, member, upload, sent, fine.1, fine.2.1⟩

/-- The block of a piece has arrived, and is asked for before the piece is
checked. -/
def serveUnchecked : List SeederEvent :=
  [.setInfo ⟨4, 4⟩ [] false, .storeBlock 0 0 0 [7, 7, 7, 7], .attach,
    .reconcileChoke 0 {} true, .request 0 0 1 2 {}]

theorem unverified_block_uploaded :
    Exists fun seeder : Seeder => machine.RunsTo Machine.always serveUnchecked seeder ∧
      Exists fun conn : UploadConn => conn ∈ seeder.conns ∧
        Exists fun upload : Upload => .piece upload ∈ conn.outbox ∧
          upload.complete = false ∧ upload.data = [7, 7] := by
  have run : machine.RunsTo Machine.always serveUnchecked ((machine.exec {} serveUnchecked).getD {}) :=
    .of_exec rfl (Machine.permits_always _ _ _) rfl
  exact ⟨_, run, _, mem_cons_self, _, mem_cons_of_mem _ mem_cons_self, rfl, rfl⟩

/-! ## Choked peers -/

/-- No choked peer asks for a piece that it has itself called allowed. -/
def NotSelfGranted (seeder : Seeder) : SeederEvent -> Prop
  | .request conn index _ _ _ =>
    ∀ c, seeder.conns[conn]? = some c -> c.amChoking = true -> index ∉ c.peerAllowedFast
  | .attach | .finishRead _ _ _ | .allowedFast _ _ | .reconcileChoke _ _ _ | .write _
  | .closeHandle _ | .setInfo _ _ _ | .storeBlock _ _ _ _ | .queuePieceHash _ _ | .hashResult _ _
  | .refreshPiece _ _ _ | .replace _ _ => True

/-- No block was sent, and none is to be read, for a request that was handled
while the peer was choked. -/
structure Unchoked (conn : UploadConn) : Prop where
  sent : ∀ upload, .piece upload ∈ conn.outbox -> upload.choked = false
  pending : ∀ read ∈ conn.reads, read.choked = false

theorem Unchoked.of_adds (unchoked : Unchoked before)
    (adds : UploadConn.Adds (fun upload => upload.choked = false)
      (fun read => read.choked = false) before after) : Unchoked after := by
  refine ⟨fun upload sent => ?_, fun read pending => ?_⟩
  · rcases adds.pieces upload sent with earlier | now
    · exact unchoked.sent upload earlier
    · exact now
  · rcases adds.reads read pending with earlier | now
    · exact unchoked.pending read earlier
    · exact now

theorem unchoked_onConn (unchoked : ∀ conn ∈ seeder.conns, Unchoked conn) {conn : Nat}
    (adds : ∀ c, seeder.conns[conn]? = some c -> Unchoked c ->
      UploadConn.Adds (fun upload => upload.choked = false) (fun read => read.choked = false) c (change c)) :
    ∀ c ∈ (seeder.onConn conn change).conns, Unchoked c := by
  apply forall_onConn unchoked
  intro c found
  have before := unchoked c (mem_of_getElem? found)
  exact before.of_adds (adds c found before)

theorem amChoking_of_passes {conn : UploadConn} {policy : UploadPolicy}
    (notAllowed : conn.amChoking = true -> index ∉ conn.peerAllowedFast)
    (passed : conn.passes index policy = true) : conn.amChoking = false := by
  cases choking : conn.amChoking with
  | false => rfl
  | true =>
    have refused := notAllowed choking
    rw [passes, choking, decide_eq_false refused] at passed
    cases passed

theorem unchoked_step {after : Seeder} {event : SeederEvent} (unchoked : ∀ conn ∈ seeder.conns, Unchoked conn)
    (notGranted : seeder.NotSelfGranted event) (taken : seeder.step event = some after) :
    ∀ conn ∈ after.conns, Unchoked conn := by
  cases event with
  | attach =>
    cases taken
    exact forall_mem_append.mpr ⟨unchoked, forall_mem_singleton.mpr ⟨nofun, nofun⟩⟩
  | request =>
    cases taken
    apply unchoked_onConn unchoked
    intro c found _
    apply adds_request
    · intro passed upload _ _ choked _
      rw [choked]
      exact amChoking_of_passes (notGranted c found) passed
    · intro passed
      exact amChoking_of_passes (notGranted c found) passed
  | finishRead =>
    cases taken
    apply unchoked_onConn unchoked
    intro c _ before
    apply adds_finishRead
    intro read member upload _ _ choked _
    rw [choked]
    exact before.pending read member
  | allowedFast | closeHandle =>
    cases taken
    exact unchoked_onConn unchoked fun c _ _ => .of_same rfl rfl
  | reconcileChoke conn policy wanted =>
    cases taken
    exact unchoked_onConn unchoked fun c _ _ => c.adds_reconcileChoke policy wanted
  | write =>
    cases taken
    exact unchoked_onConn unchoked fun c _ _ => c.adds_write
  | setInfo =>
    rcases ite_none_left_eq_some.mp taken with ⟨_, ⟨⟩⟩
    exact unchoked
  | storeBlock req piece start data | queuePieceHash piece queued | hashResult piece valid
  | refreshPiece | replace =>
    cases taken
    exact unchoked

/-- In every run in which no choked peer asks for a piece that it called allowed
itself, a request that is handled while the peer is choked leads to a block
only for a piece that was granted to the peer. -/
theorem choking_enforced_of_notSelfGranted {events : List SeederEvent} {seeder : Seeder}
    (run : machine.RunsTo NotSelfGranted events seeder) :
    forall conn, conn ∈ seeder.conns -> forall upload, .piece upload ∈ conn.outbox ->
      upload.choked = true -> .allowedFast upload.index ∈ conn.outbox := by
  have unchoked : forall c, c ∈ seeder.conns -> Unchoked c := by
    refine run.stateInvariant (motive := fun state => forall c, c ∈ state.conns -> Unchoked c) ?_ ?_
    · intro state initial
      rw [initial]
      nofun
    · intro state event after invariant notGranted taken
      exact unchoked_step invariant notGranted taken
  intro conn member upload sent choked
  have free := (unchoked conn member).sent upload sent
  rw [choked] at free
  cases free

/-- The peer calls a piece allowed, and asks for it when it is let in. -/
def askedWhenLetIn : List SeederEvent :=
  [.setInfo ⟨4, 4⟩ [0] false, .attach, .allowedFast 0 0, .reconcileChoke 0 {} true, .request 0 0 1 2 {}]

theorem choking_enforced_askedWhenLetIn :
    Exists fun seeder : Seeder => machine.RunsTo NotSelfGranted askedWhenLetIn seeder ∧
      Exists fun conn : UploadConn => conn ∈ seeder.conns ∧
        Exists fun upload : Upload => .piece upload ∈ conn.outbox ∧
          (upload.choked = true -> .allowedFast upload.index ∈ conn.outbox) := by
  have run : machine.RunsTo NotSelfGranted askedWhenLetIn ((machine.exec {} askedWhenLetIn).getD {}) := by
    refine .of_exec rfl ⟨trivial, trivial, trivial, trivial, ⟨?_, trivial⟩⟩ rfl
    intro c found choking
    rw [<- Option.some.inj found] at choking
    cases choking
  have served : Exists fun conn : UploadConn =>
      conn ∈ ((machine.exec {} askedWhenLetIn).getD {}).conns /\
        Exists fun upload : Upload => .piece upload ∈ conn.outbox :=
    ⟨_, mem_cons_self, _, mem_cons_of_mem _ mem_cons_self⟩
  rcases served with ⟨conn, member, upload, sent⟩
  exact ⟨_, run, conn, member, upload, sent, choking_enforced_of_notSelfGranted run conn member upload sent⟩

/-- The peer calls a piece allowed, and asks for it while it is choked. -/
def askedWhileChoked : List SeederEvent :=
  [.setInfo ⟨4, 4⟩ [0] false, .attach, .allowedFast 0 0, .request 0 0 1 2 {}]

theorem choked_peer_served :
    Exists fun seeder : Seeder => machine.RunsTo Machine.always askedWhileChoked seeder ∧
      Exists fun conn : UploadConn => conn ∈ seeder.conns ∧ Exists fun upload : Upload =>
          conn.outbox = [.piece upload] ∧ upload.choked = true := by
  have run : machine.RunsTo Machine.always askedWhileChoked ((machine.exec {} askedWhileChoked).getD {}) :=
    .of_exec rfl (Machine.permits_always _ _ _) rfl
  exact ⟨_, run, _, mem_cons_self, _, rfl, rfl⟩

end Seeder
end TorrentPlayer.Core
