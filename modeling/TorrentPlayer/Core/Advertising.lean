import TorrentPlayer.Core.PieceCheckRuns
import TorrentPlayer.Wire.Message

namespace TorrentPlayer.Core

open Library FiniteMap Wire List Option Hashing

/-!
# Telling the peers what is here

A new connection is told which pieces are complete by the first messages of its
handler.  After that, `apply_hash_result` of `wt-core/src/torrent.rs` sends a
`Have` to every connection for each piece that passes its check.  Pieces also
become complete when the info arrives or a piece is compared with its storage;
nothing is sent then.

The handler reads the table piece by piece, up to three times over, and every
reading of an entry is a step here.  The sections of hash results and refreshes
are those of `HashTask`.
-/

def pieceBit (bits : Bytes) (piece : Nat) : Bool :=
  (unmarshalBitfield bits)[piece]? == some true

def setPieceBit (bits : Bytes) (piece : Nat) : Bytes :=
  bits.modify (piece / 8) (fun byte => byte ||| 0x80 >>> UInt8.ofNat (piece % 8))

theorem getElem?_unmarshalBitfield (bits : Bytes) (piece : Nat) : (unmarshalBitfield bits)[piece]? =
    bits[piece / 8]?.map (fun byte => byte.toNat.testBit (7 - piece % 8)) := by
  induction bits generalizing piece with
  | nil => rfl
  | cons byte bits ih =>
    rw [unmarshalBitfield, flatMap_cons]
    by_cases first : piece < 8
    · rw [getElem?_append_left (by simpa using first)]
      interval_cases piece <;> rfl
    rw [getElem?_append_right (by simpa using first)]
    obtain ⟨later, rfl⟩ : Exists fun later => piece = later + 8 :=
      ⟨piece - 8, by omega⟩
    have place : (later + 8) / 8 = later / 8 + 1 := by omega
    have same : (later + 8) % 8 = later % 8 := by omega
    rw [place, same, getElem?_cons_succ, <- ih]
    rfl

theorem testBit_pieceMask : ∀ first < 8, ∀ second <
    8, ((0x80 : UInt8) >>> UInt8.ofNat first).toNat.testBit (7 - second) = decide (first = second) := by
  decide

theorem pieceBit_setPieceBit {bits : Bytes} {piece : Nat} (room : piece / 8 < bits.length) (other : Nat) :
    pieceBit (setPieceBit bits piece) other = (pieceBit bits other || decide (piece = other)) := by
  rw [pieceBit, pieceBit, getElem?_unmarshalBitfield, getElem?_unmarshalBitfield, setPieceBit,
    getElem?_modify]
  by_cases here : piece / 8 = other / 8
  · rw [<- here, getElem?_eq_getElem room]
    simp only [if_true, map_some, Option.map_eq_map]
    rw [UInt8.toNat_or, Nat.testBit_or,
      testBit_pieceMask _ (Nat.mod_lt _ (by decide)) _ (Nat.mod_lt _ (by decide))]
    have same : piece % 8 = other % 8 <-> piece = other := by omega
    simp only [same]
    simp
  · have different : piece ≠ other := by
      rintro rfl
      exact here rfl
    rw [decide_eq_false different]
    simp only [if_neg here]
    simp

/-- Where the sending of the first messages is. -/
inductive Starting where
  /-- The connection is in the table of connections, and nothing was read. -/
  | opened
  /-- The first `next` pieces were found complete. -/
  | all (count next : Nat)
  /-- The first `next` pieces were found not to be complete. -/
  | any (count : Nat) (haveAll : Bool) (next : Nat)
  | fill (count next : Nat) (bits : Bytes)
  | done
  deriving DecidableEq

structure OpenConn where
  supportsFast : Bool
  starting : Starting := .opened
  queued : List Message := []
  deriving DecidableEq

namespace OpenConn

def send (conn : OpenConn) (message : Message) : OpenConn :=
  { conn with queued := conn.queued ++ [message] }

def enter (conn : OpenConn) (starting : Starting) : OpenConn :=
  { conn with starting := starting }

def sendBitfield (conn : OpenConn) (count : Nat) : OpenConn :=
  conn.enter (.fill count 0 (List.replicate ((count + 7) / 8) 0))

/-- The choice between the first messages. -/
def announce (conn : OpenConn) (count : Nat) (haveAll haveAny : Bool) : OpenConn :=
  if conn.supportsFast then
    if haveAll then (conn.send .haveAll).enter .done
    else if !haveAny then (conn.send .haveNone).enter .done
    else if 0 < count then conn.sendBitfield count
    else conn.enter .done
  else if haveAny then conn.sendBitfield count
  else conn.enter .done

/-- One reading of the table by `start`. -/
def start (torrent : Torrent) (conn : OpenConn) : OpenConn :=
  match conn.starting with
  | .opened =>
    if 0 < torrent.numPieces then conn.enter (.all torrent.numPieces 0)
    else conn.enter (.any torrent.numPieces false 0)
  | .all count next =>
    if next < count then
      if torrent.pieceComplete next then conn.enter (.all count (next + 1))
      else conn.enter (.any count false 0)
    else conn.enter (.any count true 0)
  | .any count haveAll next =>
    if next < count then
      if torrent.pieceComplete next then conn.announce count haveAll true
      else conn.enter (.any count haveAll (next + 1))
    else conn.announce count haveAll false
  | .fill count next bits =>
    if next < count then
      conn.enter (.fill count (next + 1)
        (if torrent.pieceComplete next then setPieceBit bits next else bits))
    else (conn.send (.bitfield bits)).enter .done
  | .done => conn

end OpenConn

/-- The message says that the piece is here. -/
def covers : Message -> Nat -> Bool
  | .haveAll, _ => true
  | .have index, piece => index == UInt32.ofNat piece
  | .bitfield bits, piece => pieceBit bits piece
  | _, _ => false

inductive AdvertTask where
  | check (task : HashTask)
  /-- A checked piece is in the table, and the connections are told next. -/
  | tell (piece : Nat)
  deriving DecidableEq

structure Advertising where
  torrent : Torrent := {}
  conns : FiniteMap PeerKey OpenConn := ∅
  tasks : List AdvertTask := []

namespace Advertising

inductive Label where
  | attach (peer : PeerKey) (supportsFast : Bool)
  | close (peer : PeerKey)
  | start (peer : PeerKey)
  /-- The info arrives; the storage has the pieces that are `complete`. -/
  | setInfo (info : Info) (complete : Nat -> Bool) (downloadAll : Bool)
      (live : List (Finset Nat))
  | result (piece : Nat) (valid : Bool)
  /-- The storage is asked about a piece. -/
  | refresh (piece : Nat) (complete : Bool)
  | advance (task : AdvertTask) (fine : Bool)

/-- What a hash result does beside its changes of the torrent. -/
def tells (torrent : Torrent) : HashTask -> List AdvertTask
  | .applying piece true =>
    if torrent.info.all (fun info => info.numPieces <= piece) then [] else [.tell piece]
  | _ => []

def runCheck (state : Advertising) (task : HashTask) (fine : Bool) : Advertising :=
  { state with
    torrent := (task.advance state.torrent fine).torrent
    tasks := state.tasks.erase (.check task) ++
      ((task.advance state.torrent fine).next.toList.map .check ++ tells state.torrent task) }

def runTell (state : Advertising) (piece : Nat) : Advertising :=
  { state with
    conns := state.conns.retain (fun _ conn => some (conn.send (.have (UInt32.ofNat piece))))
    tasks := state.tasks.erase (.tell piece) }

def step (state : Advertising) : Label -> Option Advertising
  | .attach peer supportsFast =>
    if (state.conns.lookup peer).isSome then none
    else some { state with
      conns := AList.insert peer { supportsFast := supportsFast } state.conns }
  | .close peer => some { state with conns := AList.erase peer state.conns }
  | .start peer =>
    (state.conns.lookup peer).map (fun conn =>
      { state with conns := AList.insert peer (conn.start state.torrent) state.conns })
  | .setInfo info complete downloadAll live =>
    -- The handlers read the table alone, and it changes at one point of `set_info`.
    some { state with torrent := state.torrent.setInfo info complete downloadAll live }
  | .result piece valid =>
    if state.torrent.info.any (fun info => piece < info.numPieces) then
      some { state with tasks := state.tasks ++ [.check (.applying piece valid)] }
    else none
  | .refresh piece complete =>
    if state.torrent.haveInfo then
      some { state with tasks := state.tasks ++ [.check (.refreshing piece complete)] }
    else none
  | .advance task fine =>
    if task ∈ state.tasks then
      match task with
      | .check task => some (state.runCheck task fine)
      | .tell piece => some (state.runTell piece)
    else none

def machine : Machine Advertising Label where
  init := fun state => state = {}
  step := step

/-- No hash result, refresh or sending of first messages is in progress. -/
def Idle (state : Advertising) : Prop :=
  state.tasks = [] /\ ∀ entry ∈ state.conns.entries, entry.2.starting = .done

instance (state : Advertising) : Decidable state.Idle :=
  inferInstanceAs (Decidable (_ /\ _))

end Advertising

namespace OpenConn

def Told (conn : OpenConn) (piece : Nat) : Prop :=
  Exists fun message => message ∈ conn.queued /\ covers message piece = true

/-! ## What a handler still has to say -/

/-- If the piece stays complete, the first messages will cover it. -/
def WillTell (conn : OpenConn) (piece : Nat) : Prop :=
  match conn.starting with
  | .opened => True
  | .all count _ => piece < count
  | .any count haveAll next =>
    conn.supportsFast = true /\ haveAll = true ∨ next <= piece /\ piece < count
  | .fill count next bits => pieceBit bits piece = true ∨ next <= piece /\ piece < count
  | .done => False

/-- The bit field has a place for every piece that is counted. -/
def HasRoom (conn : OpenConn) : Prop :=
  match conn.starting with
  | .fill count _ bits => bits.length = (count + 7) / 8
  | .opened | .all _ _ | .any _ _ _ | .done => True

variable {conn : OpenConn} {piece : Nat}

theorem Told.send (told : conn.Told piece) (message : Message) : (conn.send message).Told piece := by
  rcases told with ⟨earlier, queued, covered⟩
  exact ⟨earlier, mem_append_left _ queued, covered⟩

theorem told_send {message : Message} (covered : covers message piece = true) :
    (conn.send message).Told piece :=
  ⟨message, mem_append_right _ (mem_singleton_self _), covered⟩

theorem queued_announce (conn : OpenConn) (count : Nat) (haveAll haveAny : Bool) :
    conn.queued ⊆ (conn.announce count haveAll haveAny).queued := by
  unfold announce
  split_ifs
  all_goals first
    | exact List.Subset.refl _
    | exact subset_append_left _ _

theorem queued_start (torrent : Torrent) (conn : OpenConn) : conn.queued ⊆ (conn.start torrent).queued := by
  unfold start
  split
  · split_ifs <;> exact List.Subset.refl _
  · split_ifs <;> exact List.Subset.refl _
  · split_ifs
    · exact queued_announce _ _ _ _
    · exact List.Subset.refl _
    · exact queued_announce _ _ _ _
  · split_ifs
    · exact List.Subset.refl _
    · exact List.Subset.refl _
    · exact subset_append_left _ _
  · exact List.Subset.refl _

theorem hasRoom_announce (conn : OpenConn) (count : Nat) (haveAll haveAny : Bool) :
    (conn.announce count haveAll haveAny).HasRoom := by
  unfold announce
  split_ifs
  all_goals first
    | exact trivial
    | exact length_replicate

theorem HasRoom.start (room : conn.HasRoom) (torrent : Torrent) : (conn.start torrent).HasRoom := by
  unfold OpenConn.start
  split
  · split_ifs <;> exact trivial
  · split_ifs <;> exact trivial
  · split_ifs
    · exact hasRoom_announce _ _ _ _
    · exact trivial
    · exact hasRoom_announce _ _ _ _
  · rename_i count next bits isFill
    simp only [HasRoom, isFill] at room
    split_ifs
    · exact (length_modify _ _ _).trans room
    · exact room
    · exact trivial
  · rename_i isDone
    simp only [HasRoom, isDone]

/-- The choice of the first message keeps the promise, whether or not a complete
piece was found. -/
theorem announce_tells {count : Nat} {haveAll haveAny : Bool}
    (covered : conn.supportsFast = true /\ haveAll = true \/ haveAny = true /\ piece < count) :
    (conn.announce count haveAll haveAny).Told piece \/
    (conn.announce count haveAll haveAny).WillTell piece := by
  unfold announce
  split_ifs with fast all none_ some_ any
  · exact .inl (told_send rfl)
  · rcases covered with ⟨_, isAll⟩ | ⟨isAny, _⟩
    · exact absurd isAll all
    rw [isAny] at none_
    cases none_
  · rcases covered with ⟨_, isAll⟩ | ⟨_, inside⟩
    · exact absurd isAll all
    · exact .inr (Or.inr ⟨Nat.zero_le _, inside⟩)
  · rcases covered with ⟨_, isAll⟩ | ⟨_, inside⟩
    · exact absurd isAll all
    · exact absurd (Nat.zero_lt_of_lt inside) some_
  · rcases covered with ⟨isFast, _⟩ | ⟨_, inside⟩
    · exact absurd isFast fast
    · exact .inr (Or.inr ⟨Nat.zero_le _, inside⟩)
  · rcases covered with ⟨isFast, _⟩ | ⟨isAny, _⟩
    · exact absurd isFast fast
    · exact absurd isAny any

theorem WillTell.start {torrent : Torrent} (will : conn.WillTell piece) (room : conn.HasRoom)
    (complete : torrent.pieceComplete piece = true) :
    (conn.start torrent).Told piece \/ (conn.start torrent).WillTell piece := by
  have inside : piece < torrent.numPieces := by
    by_contra outside
    rw [Torrent.pieceComplete, getElem?_eq_none (Nat.le_of_not_lt outside)] at complete
    cases complete
  unfold OpenConn.start
  unfold WillTell at will
  split
  · rename_i isOpened
    rw [if_pos (Nat.zero_lt_of_lt inside)]
    exact .inr inside
  · rename_i count next isAll
    simp only [isAll] at will
    right
    split_ifs
    · exact will
    · exact .inr ⟨Nat.zero_le _, will⟩
    · exact .inr ⟨Nat.zero_le _, will⟩
  · rename_i count haveAll next isAny
    simp only [isAny] at will
    split_ifs with more found
    · refine announce_tells ?_
      rcases will with all | ⟨_, counted⟩
      · exact .inl all
      · exact .inr ⟨rfl, counted⟩
    · right
      rcases will with all | ⟨_, counted⟩
      · exact .inl all
      refine .inr ⟨?_, counted⟩
      have different : next ≠ piece := by
        rintro rfl
        exact found complete
      omega
    · refine announce_tells (Or.inl ?_)
      rcases will with all | ⟨_, _⟩
      · exact all
      · omega
  · rename_i count next bits isFill
    simp only [isFill] at will
    simp only [HasRoom, isFill] at room
    split_ifs with more found
    · right
      have place : next / 8 < bits.length := by omega
      show pieceBit (setPieceBit bits next) piece = true \/ next + 1 <= piece /\ piece < count
      rw [pieceBit_setPieceBit place, Bool.or_eq_true, decide_eq_true_eq]
      rcases will with set | ⟨_, counted⟩
      · exact .inl (Or.inl set)
      by_cases here : next = piece
      · exact .inl (Or.inr here)
      · exact .inr ⟨by omega, counted⟩
    · right
      rcases will with set | ⟨_, counted⟩
      · exact .inl set
      refine .inr ⟨?_, counted⟩
      have different : next ≠ piece := by
        rintro rfl
        exact found complete
      omega
    · left
      rcases will with set | ⟨_, _⟩
      · exact told_send set
      · omega
  · rename_i isDone
    simp only [isDone] at will

end OpenConn

theorem pieceComplete_iff (torrent : Torrent) (piece : Nat) : torrent.pieceComplete piece = true <->
    Exists fun entry => torrent.pieces[piece]? = some entry /\ entry.complete = true := by
  rw [Torrent.pieceComplete, Option.any_eq_true]

variable {task : HashTask}

theorem completes_of_advance {torrent : Torrent}
    {fine : Bool} {piece : Nat} (sized : torrent.pieces.length = torrent.info.elim 0 Info.numPieces)
    (complete : (task.advance torrent fine).torrent.pieceComplete piece = true) : torrent.pieceComplete
    piece = true \/ task = .applying piece true \/ Exists fun lost => task = .updating piece true lost := by
  by_cases elsewhere : ∀ found, task.enters ≠ some (piece, found)
  · rw [pieceComplete_advance elsewhere] at complete
    exact .inl complete
  push Not at elsewhere
  rcases elsewhere with ⟨_, enters⟩
  have inside : piece < torrent.pieces.length := by
    rcases (pieceComplete_iff _ _).mp complete with ⟨_, isEntry, _⟩
    rw [<- (advance_frame task torrent fine).2]
    exact (List.getElem?_eq_some_iff.mp isEntry).1
  rw [pieceComplete_of_enters sized inside enters] at complete
  right
  cases task with
  | applying =>
    cases enters
    exact .inl (by rw [complete])
  | updating other entered lost =>
    cases enters
    exact .inr ⟨lost, by rw [complete]⟩
  | writing _ _ _ _ | received _ | queueing _ | handing _ | fetching _ _ _ | fetchWriting _ _ _
  | dropping | refreshing | probed => cases enters

/-! ## Every step keeps its promises -/

namespace Advertising

/-- The connections will be told by a hash result in progress. -/
def Pending (state : Advertising) (piece : Nat) : Prop :=
  .tell piece ∈ state.tasks ∨ .check (.applying piece true) ∈ state.tasks

structure Informed (state : Advertising) : Prop where
  sized : state.torrent.pieces.length = state.torrent.info.elim 0 Info.numPieces
  room : ∀ peer conn, state.conns.lookup peer = some conn -> conn.HasRoom
  told : ∀ piece, state.torrent.pieceComplete piece = true ->
    state.Pending piece ∨ ∀ peer conn, state.conns.lookup peer = some conn ->
      conn.Told piece ∨ conn.WillTell piece

/-- No open connection has begun to read the table. -/
def Unread (state : Advertising) : Prop :=
  ∀ entry ∈ state.conns.entries, entry.2.starting = .opened

/-- The info and the refreshes add no complete piece behind the back of an open
connection: the piece is complete in the table, its hash result is in progress,
or no open connection has begun to read the table. -/
def Careful (state : Advertising) : Label -> Prop
  | .setInfo info complete _ _ => ∀ piece < info.numPieces, complete piece = true ->
      state.torrent.pieceComplete piece = true ∨ state.Unread
  | .advance (.check (.updating piece true _)) _ =>
    state.torrent.pieceComplete piece = true ∨ .check (.applying piece true) ∈ state.tasks ∨ state.Unread
  | _ => True

variable {state after : Advertising} {conn : OpenConn} {peer : PeerKey}

theorem Unread.willTell (unread : state.Unread) (piece : Nat)
    (found : state.conns.lookup peer = some conn) : conn.WillTell piece := by
  have isOpened : conn.starting = .opened :=
    unread ⟨peer, conn⟩ ((mem_entries_iff _ _ _).mpr found)
  unfold OpenConn.WillTell
  rw [isOpened]
  trivial

section
variable (informed : Informed state)
include informed

theorem Informed.attach (peer : PeerKey) (supportsFast : Bool) : Informed { state with
      conns := AList.insert peer { supportsFast := supportsFast } state.conns } := by
  refine ⟨informed.sized, forall_lookup_insert trivial informed.room, fun piece complete => ?_⟩
  exact (informed.told piece complete).imp id (forall_lookup_insert (.inr trivial))

theorem Informed.close (peer : PeerKey) : Informed { state with conns := AList.erase peer state.conns } := by
  refine ⟨informed.sized, ?_, ?_⟩
  · intro other conn found
    exact informed.room other conn (lookup_of_erase found)
  · intro piece complete
    refine (informed.told piece complete).imp id fun told other conn found => ?_
    exact told other conn (lookup_of_erase found)

theorem Informed.start
    (found : state.conns.lookup peer = some conn) : Informed { state with
      conns := AList.insert peer (conn.start state.torrent) state.conns } := by
  have room := informed.room peer conn found
  refine ⟨informed.sized, forall_lookup_insert (room.start state.torrent) informed.room, ?_⟩
  intro piece complete
  refine (informed.told piece complete).imp id fun told => forall_lookup_insert ?_ told
  rcases told peer conn found with ⟨message, queued, covered⟩ | will
  · exact .inl ⟨message, OpenConn.queued_start state.torrent conn queued, covered⟩
  · exact will.start room complete

theorem Informed.setInfo {info : Info} {complete : Nat -> Bool}
    {downloadAll : Bool} {live : List (Finset Nat)}
    (careful : Careful state (.setInfo info complete downloadAll live)) :
    Informed { state with torrent := state.torrent.setInfo info complete downloadAll live } := by
  refine ⟨?_, informed.room, ?_⟩
  · show (state.torrent.setInfo info complete downloadAll live).pieces.length = info.numPieces
    rw [Torrent.setInfo_pieces, length_map, length_range]
  · intro piece isComplete
    have entered : (state.torrent.setInfo info complete downloadAll live).pieceComplete piece =
        true := isComplete
    rw [pieceComplete_iff, Torrent.setInfo_pieces] at entered
    rcases entered with ⟨_, found, stored⟩
    rw [getElem?_map] at found
    rcases map_eq_some_iff.mp found with ⟨_, inRange, rfl⟩
    obtain ⟨inside, rfl⟩ := List.getElem?_eq_some_iff.mp inRange
    rw [length_range] at inside
    rw [getElem_range] at stored
    rcases careful piece inside stored with before | unread
    · exact informed.told piece before
    · exact .inr (fun peer conn foundConn => Or.inr (unread.willTell piece foundConn))

/-- A task more in progress takes nothing away. -/
theorem Informed.spawn (task : AdvertTask) : Informed { state with tasks := state.tasks ++ [task] } := by
  refine ⟨informed.sized, informed.room, ?_⟩
  intro piece complete
  refine (informed.told piece complete).imp (fun pending => ?_) id
  exact pending.imp (mem_append_left _) (mem_append_left _)

end

theorem lookup_of_runTell {told : Nat} (found : (state.runTell told).conns.lookup peer = some conn) :
    Exists fun old => state.conns.lookup peer = some old /\ conn = old.send (.have (UInt32.ofNat told)) := by
  have retained := lookup_retain state.conns (fun _ conn => some (conn.send (.have (UInt32.ofNat told)))) peer
  rcases bind_eq_some_iff.mp (retained.symm.trans found) with ⟨old, foundOld, sent⟩
  exact ⟨old, foundOld, (Option.some.inj sent).symm⟩

theorem Informed.runTell (informed : Informed state) (told : Nat) : Informed (state.runTell told) := by
  refine ⟨informed.sized, ?_, ?_⟩
  · intro peer conn found
    rcases lookup_of_runTell found with ⟨old, foundOld, rfl⟩
    exact informed.room peer old foundOld
  · intro piece complete
    by_cases here : piece = told
    · right
      intro peer conn found
      rcases lookup_of_runTell found with ⟨_, _, rfl⟩
      left
      refine OpenConn.told_send ?_
      rw [here]
      exact beq_self_eq_true _
    · rcases informed.told piece complete with pending | all
      · left
        refine pending.imp (fun tell => ?_) fun applying => ?_
        · refine (mem_erase_of_ne ?_).mpr tell
          intro same
          cases same
          exact here rfl
        · refine (mem_erase_of_ne ?_).mpr applying
          nofun
      · right
        intro peer conn found
        rcases lookup_of_runTell found with ⟨old, foundOld, rfl⟩
        exact (all peer old foundOld).imp (fun was => was.send _) id

theorem Pending.runCheck {fine : Bool} {piece : Nat} (pending : state.Pending piece)
    (other : task ≠ .applying piece true) : (state.runCheck task fine).Pending piece := by
  refine pending.imp (fun tell => ?_) fun applying => ?_
  · refine mem_append_left _ ((mem_erase_of_ne ?_).mpr tell)
    nofun
  · refine mem_append_left _ ((mem_erase_of_ne ?_).mpr applying)
    intro same
    cases same
    exact other rfl

theorem Informed.runCheck (informed : Informed state) {fine : Bool}
    (careful : Careful state (.advance (.check task) fine)) : Informed (state.runCheck task fine) := by
  have frame := advance_frame task state.torrent fine
  have sized : (state.runCheck task fine).torrent.pieces.length =
      (state.runCheck task fine).torrent.info.elim 0 Info.numPieces := by
    show (task.advance state.torrent fine).torrent.pieces.length =
      (task.advance state.torrent fine).torrent.info.elim 0 Info.numPieces
    rw [frame.1, frame.2]
    exact informed.sized
  refine ⟨sized, informed.room, ?_⟩
  intro piece complete
  by_cases applies : task = .applying piece true
  · -- The piece is in the table, so its result is not refused.
    left
    left
    refine mem_append_right _ (mem_append_right _ ?_)
    rw [applies, tells]
    rcases (pieceComplete_iff _ _).mp complete with ⟨_, found, _⟩
    have inside : piece < state.torrent.info.elim 0 Info.numPieces := by
      rw [<- informed.sized, <- frame.2]
      exact (List.getElem?_eq_some_iff.mp found).1
    have accepted : ¬ (state.torrent.info.all (fun info => info.numPieces <= piece)) = true := by
      cases known : state.torrent.info with
      | none =>
        rw [known] at inside
        exact absurd inside (Nat.not_lt_zero _)
      | some =>
        rw [known] at inside
        simpa using inside
    rw [if_neg accepted]
    exact mem_singleton_self _
  · have before : state.torrent.pieceComplete piece = true \/
        .check (.applying piece true) ∈ state.tasks \/ state.Unread := by
      rcases completes_of_advance informed.sized complete with was | isApplying | ⟨_, isUpdating⟩
      · exact .inl was
      · exact absurd isApplying applies
      · rw [isUpdating] at careful
        exact careful
    rcases before with was | applying | unread
    · exact (informed.told piece was).imp (fun pending => pending.runCheck applies) id
    · exact .inl (Pending.runCheck (Or.inr applying) applies)
    · exact .inr (fun peer conn found => Or.inr (unread.willTell piece found))

theorem Informed.step {label : Label} (informed : Informed state) (careful : Careful state label)
    (moved : Advertising.step state label = some after) : Informed after := by
  cases label with
  | attach peer supportsFast =>
    rcases ite_none_left_eq_some.mp moved with ⟨_, ⟨⟩⟩
    exact informed.attach peer supportsFast
  | close peer =>
    cases moved
    exact informed.close peer
  | start =>
    rcases map_eq_some_iff.mp moved with ⟨_, found, rfl⟩
    exact informed.start found
  | setInfo =>
    cases moved
    exact informed.setInfo careful
  | result | refresh =>
    rcases ite_none_right_eq_some.mp moved with ⟨_, ⟨⟩⟩
    exact informed.spawn _
  | advance task =>
    rcases ite_none_right_eq_some.mp moved with ⟨_, moved⟩
    cases task with
    | check =>
      cases moved
      exact informed.runCheck careful
    | tell piece =>
      cases moved
      exact informed.runTell piece

/-- In every run in which no complete piece is added behind the back of an open
connection, every open connection is told of every complete piece once nothing
is in progress. -/
theorem complete_pieces_told {labels : List Label} (run : machine.RunsTo Careful labels state)
    (idle : state.Idle) : forall peer conn piece, state.conns.lookup peer = some conn ->
      state.torrent.pieceComplete piece = true -> conn.Told piece := by
  have informed : Informed state := by
    refine run.stateInvariant ?_ (fun _ _ _ informed careful moved => informed.step careful moved)
    rintro first rfl
    exact ⟨rfl, nofun, nofun⟩
  intro peer conn piece found complete
  rcases informed.told piece complete with pending | all
  · rw [Pending, idle.1] at pending
    rcases pending with impossible | impossible
    · cases impossible
    · cases impossible
  · rcases all peer conn found with told | will
    · exact told
    have isDone : conn.starting = .done :=
      idle.2 ⟨peer, conn⟩ ((mem_entries_iff _ _ _).mpr found)
    rw [OpenConn.WillTell, isDone] at will
    exact absurd will id

instance (state : Advertising) (label : Label) : Decidable (Careful state label) :=
  match label with
  | .setInfo info complete _ _ =>
    inferInstanceAs (Decidable (∀ piece < info.numPieces, complete piece = true ->
      state.torrent.pieceComplete piece = true ∨ ∀ entry ∈ state.conns.entries, entry.2.starting = .opened))
  | .advance (.check (.updating piece true _)) _ =>
    inferInstanceAs (Decidable (state.torrent.pieceComplete piece = true ∨
      .check (.applying piece true) ∈ state.tasks ∨
        ∀ entry ∈ state.conns.entries, entry.2.starting = .opened))
  | .attach _ _ | .close _ | .start _ | .result _ _ | .refresh _ _ | .advance (.tell _) _ =>
    isTrue trivial
  | .advance (.check (.updating _ false _)) _ | .advance (.check (.writing _ _ _ _)) _
  | .advance (.check (.received _)) _ | .advance (.check (.queueing _)) _
  | .advance (.check (.handing _)) _ | .advance (.check (.fetching _ _ _)) _
  | .advance (.check (.fetchWriting _ _ _)) _ | .advance (.check (.applying _ _)) _
  | .advance (.check (.dropping _)) _ | .advance (.check (.refreshing _ _)) _
  | .advance (.check (.probed _ _ _)) _ => isTrue trivial

def twoPieces : Info :=
  { pieceLength := 1, totalLength := 2 }

/-- A connection opens before the info is known, and another when it is.  A
piece passes its check while the second reads the table. -/
def twoConns : List Label :=
  [.attach 1 true, .start 1, .start 1, .setInfo twoPieces (fun _ => false) true [], .attach 2 false,
    .start 2, .start 2, .result 0 true, .start 2, .start 2, .start 2,
    .advance (.check (.applying 0 true)) true, .advance (.tell 0) true]

theorem complete_pieces_told_twoConns : let reached := (machine.exec {} twoConns).getD {}
    reached.torrent.pieceComplete 0 = true ∧ reached.Idle ∧
      forall peer conn piece, reached.conns.lookup peer = some conn ->
        reached.torrent.pieceComplete piece = true -> conn.Told piece := by
  have run : machine.RunsTo Careful twoConns ((machine.exec {} twoConns).getD {}) :=
    .of_exec rfl (by decide +kernel) rfl
  exact ⟨by decide +kernel, by decide +kernel, complete_pieces_told run (by decide +kernel)⟩

/-- The storage has both pieces when the info arrives.  The connection that was
opened before is never told. -/
theorem stored_pieces_not_told :
    let labels := [.attach 1 true, .start 1, .start 1, .setInfo twoPieces (fun _ => true) true []]
    let reached := (machine.exec {} labels).getD {}
    machine.RunsTo Machine.always labels reached ∧ reached.Idle ∧ reached.torrent.pieceComplete 0 = true ∧
        Exists fun conn => reached.conns.lookup 1 = some conn ∧ ¬ conn.Told 0 := by
  refine ⟨.of_exec rfl (machine.permits_always _ _) rfl, by decide +kernel, by decide +kernel,
    ⟨true, .done, [.haveNone]⟩, by decide +kernel, ?_⟩
  rintro ⟨message, queued, covered⟩
  rw [mem_singleton] at queued
  rw [queued] at covered
  cases covered

end Advertising

/-! ## The first message -/

def tellsAll : Message -> Bool
  | .bitfield _ | .haveAll | .haveNone => true
  | _ => false

/-- The message tells which pieces are here. -/
def advertises : Message -> Bool
  | .have _ => true
  | message => tellsAll message

namespace OpenConn

/-- At most one queued message tells the whole table, and no `Have` is queued
before it. -/
def BitfieldFirst (conn : OpenConn) : Prop :=
  conn.queued.Pairwise (fun earlier later => advertises earlier = true -> tellsAll later = false)

/-- Nothing is queued until the handler has sent its first messages. -/
def InOrder (conn : OpenConn) : Prop :=
  conn.queued = [] ∨ conn.starting = .done /\ conn.BitfieldFirst

variable {conn : OpenConn}

theorem InOrder.bitfieldFirst (inOrder : conn.InOrder) : conn.BitfieldFirst := by
  rcases inOrder with empty | ⟨_, first⟩
  · rw [BitfieldFirst, empty]
    exact List.Pairwise.nil
  · exact first

theorem inOrder_send (empty : conn.queued = []) (message : Message) :
    ((conn.send message).enter .done).InOrder := by
  refine .inr ⟨rfl, ?_⟩
  show (conn.queued ++ [message]).Pairwise _
  rw [empty]
  exact pairwise_singleton _ _

theorem inOrder_announce (empty : conn.queued = []) (count : Nat) (haveAll haveAny : Bool) :
    (conn.announce count haveAll haveAny).InOrder := by
  unfold announce
  split_ifs
  all_goals first
    | exact inOrder_send empty _
    | exact .inl empty

theorem InOrder.start (inOrder : conn.InOrder) (torrent : Torrent) : (conn.start torrent).InOrder := by
  rcases inOrder with empty | ⟨isDone, first⟩
  · unfold OpenConn.start
    split
    · split_ifs <;> exact .inl empty
    · split_ifs <;> exact .inl empty
    · split_ifs
      · exact inOrder_announce empty _ _ _
      · exact .inl empty
      · exact inOrder_announce empty _ _ _
    · split_ifs
      · exact .inl empty
      · exact .inl empty
      · exact inOrder_send empty _
    · exact .inl empty
  · unfold OpenConn.start
    rw [isDone]
    exact .inr ⟨isDone, first⟩

theorem InOrder.send_have (inOrder : conn.InOrder) (isDone : conn.starting = .done)
    (index : UInt32) : (conn.send (.have index)).InOrder := by
  refine .inr ⟨isDone, pairwise_append.mpr ⟨inOrder.bitfieldFirst, pairwise_singleton _ _, ?_⟩⟩
  intro earlier _ later isLater _
  rw [mem_singleton.mp isLater]
  rfl

end OpenConn

namespace Advertising

variable {state after : Advertising}

/-- The connections are told of a piece only when every one of them has sent its
first messages. -/
def Patient (state : Advertising) : Label -> Prop
  | .advance (.tell _) _ =>
    ∀ entry ∈ state.conns.entries, entry.2.starting = .done
  | _ => True

instance (state : Advertising) (label : Label) : Decidable (Patient state label) :=
  match label with
  | .advance (.tell _) _ => inferInstanceAs (Decidable (∀ entry ∈ _, _))
  | .attach _ _ | .close _ | .start _ | .setInfo _ _ _ _ | .result _ _ | .refresh _ _
  | .advance (.check _) _ => isTrue trivial

def Ordered (state : Advertising) : Prop :=
  ∀ peer conn, state.conns.lookup peer = some conn -> conn.InOrder

theorem Ordered.insert (ordered : Ordered state) {conn : OpenConn} (inOrder : conn.InOrder)
    (peer : PeerKey) : Ordered { state with conns := AList.insert peer conn state.conns } :=
  forall_lookup_insert inOrder ordered

theorem Ordered.step {label : Label} (ordered : Ordered state) (patient : Patient state label)
    (moved : Advertising.step state label = some after) : Ordered after := by
  cases label with
  | attach peer =>
    rcases ite_none_left_eq_some.mp moved with ⟨_, ⟨⟩⟩
    exact ordered.insert (Or.inl rfl) peer
  | close =>
    cases moved
    exact fun other conn found => ordered other conn (lookup_of_erase found)
  | start peer =>
    rcases map_eq_some_iff.mp moved with ⟨conn, found, rfl⟩
    exact ordered.insert ((ordered peer conn found).start state.torrent) peer
  | setInfo =>
    cases moved
    exact ordered
  | result | refresh =>
    rcases ite_none_right_eq_some.mp moved with ⟨_, ⟨⟩⟩
    exact ordered
  | advance task =>
    rcases ite_none_right_eq_some.mp moved with ⟨_, moved⟩
    cases task with
    | check =>
      cases moved
      exact ordered
    | tell =>
      cases moved
      intro peer conn found
      rcases lookup_of_runTell found with ⟨old, foundOld, rfl⟩
      have isDone : old.starting = .done :=
        patient ⟨peer, old⟩ ((mem_entries_iff _ _ _).mpr foundOld)
      exact (ordered peer old foundOld).send_have isDone _

/-- In every run in which the connections are told of a piece only when all of
them have sent their first messages, the queue of every connection has its bit
field first. -/
theorem bitfield_first {labels : List Label} (run : machine.RunsTo Patient labels state) :
    forall peer conn, state.conns.lookup peer = some conn -> conn.BitfieldFirst := by
  have ordered : Ordered state := by
    refine run.stateInvariant ?_ (fun _ _ _ ordered patient moved => ordered.step patient moved)
    rintro first rfl peer conn found
    cases found
  exact fun peer conn found => (ordered peer conn found).bitfieldFirst

/-- Both pieces pass their checks, the second after the connection was told of
the first. -/
def oneConn : List Label :=
  [.setInfo twoPieces (fun _ => false) true [], .result 0 true, .result 1 true,
    .advance (.check (.applying 0 true)) true, .advance (.tell 0) true, .attach 1 false,
    .start 1, .start 1, .start 1, .start 1, .start 1, .start 1, .start 1,
    .advance (.check (.applying 1 true)) true, .advance (.tell 1) true]

theorem bitfield_first_oneConn : let reached := (machine.exec {} oneConn).getD {}
    (reached.conns.lookup 1).map OpenConn.queued = some [.bitfield [0x80], .have 1] ∧
      forall peer conn, reached.conns.lookup peer = some conn -> conn.BitfieldFirst := by
  have run : machine.RunsTo Patient oneConn ((machine.exec {} oneConn).getD {}) :=
    .of_exec rfl (by decide +kernel) rfl
  exact ⟨by decide +kernel, bitfield_first run⟩

/-- A piece passes its check when the connection is in the table and has sent
nothing: the `Have` is queued before the bit field. -/
theorem have_before_bitfield :
    let labels := [.setInfo twoPieces (fun _ => false) true [], .result 0 true, .attach 1 false,
      .advance (.check (.applying 0 true)) true, .advance (.tell 0) true,
      .start 1, .start 1, .start 1, .start 1, .start 1, .start 1, .start 1]
    let reached := (machine.exec {} labels).getD {}
    machine.RunsTo Machine.always labels reached ∧ Exists fun conn => reached.conns.lookup 1 = some conn ∧
        conn.queued = [.have 0, .bitfield [0x80]] ∧ ¬ conn.BitfieldFirst := by
  refine ⟨.of_exec rfl (machine.permits_always _ _) rfl,
    ⟨false, .done, [.have 0, .bitfield [0x80]]⟩, by decide +kernel, rfl, ?_⟩
  intro first
  cases rel_of_pairwise_cons first (mem_singleton_self _) rfl

end Advertising
end TorrentPlayer.Core
