import TorrentPlayer.Discovery.PrivateTorrents

namespace TorrentPlayer.Discovery

open Library Discovering List FiniteMap
open Core.Pex (SocketAddr PexMsg)

/-!
# Private torrents use no discovery

Every task looks at the info before it acts, and none looks again.  So what
matters is which tasks are between the two when the info of a private torrent
arrives: if there is none, nothing happens from then on that a private torrent
may not do.
-/

variable {other : PeerInfo} {peer : PeerInfo}

theorem mem_insertPeer {known : List PeerInfo}
    (member : other ∈ insertPeer known peer) : other ∈ known \/ other = peer := by
  unfold insertPeer at member
  split at member
  · rcases mem_insert_iff.mp member with new | old
    · exact .inr new
    · exact .inl (mem_of_mem_erase old)
  · rcases mem_insert_iff.mp member with new | old
    · exact .inr new
    · exact .inl old

theorem mem_foldl_insertPeer : ∀ {peers known : List PeerInfo},
    other ∈ peers.foldl insertPeer known -> other ∈ known \/ other ∈ peers
  | [], _, member => Or.inl member
  | peer :: peers, known, member => by
      have grown : other ∈ peers.foldl insertPeer (insertPeer known peer) := member
      rcases mem_foldl_insertPeer grown with old | new
      · rcases mem_insertPeer old with old | same
        · exact .inl old
        rw [same]
        exact .inr mem_cons_self
      · exact .inr (mem_cons_of_mem _ new)

theorem mem_trim {priority : SocketAddr -> UInt32} {highWater : Nat} :
    ∀ {fuel : Nat} {known : List PeerInfo}, other ∈ trim priority highWater fuel known -> other ∈ known
  | 0, _, member => member
  | fuel + 1, known, member => by
      unfold trim at member
      split at member
      · split at member
        · exact mem_of_mem_erase (mem_trim member)
        · exact member
      · exact member

theorem mem_addPeers {settings : PoolSettings} {known peers : List PeerInfo}
    (member : other ∈ addPeers settings known peers) : other ∈ known \/ other ∈ peers :=
  mem_foldl_insertPeer (mem_trim member)

namespace Discovering

variable {settings : PoolSettings} {state after : Discovering}

/-! ## What a step can do -/

/-- No task is between its look at the info and what it does then. -/
structure Settled (state : Discovering) : Prop where
  dht : ∀ id announcer, state.announcers.lookup id = some announcer -> announcer.isIdle = true
  pex : ∀ conn, state.pex.lookup conn = none
  lsd : state.infoHash ∉ state.lsd.pending
  adding : ∀ addr, state.lsd ≠ .adding addr
  hints : state.hinting = false

/-- Every peer of the pool that has a barred source came from there. -/
def Accounted (state : Discovering) : Prop :=
  ∀ peer ∈ state.known, state.hadBefore peer = true

/-- The pool of a step, and the peers that came from one of the four sources. -/
inductive Pool (settings : PoolSettings) (state after : Discovering) : Prop where
  | same (known : after.known = state.known) (discovered : after.discovered = state.discovered)
  | discover (peers : List PeerInfo) (known : after.known = addPeers settings state.known peers)
      (discovered : after.discovered = state.discovered ++ peers)
  | other (peers : List PeerInfo) (had : ∀ peer ∈ peers, state.hadBefore peer = true)
      (known : after.known = addPeers settings state.known peers)
      (discovered : after.discovered = state.discovered)
  | remove (peer : PeerInfo) (known : after.known = state.known.erase peer)
      (discovered : after.discovered = state.discovered)

theorem hadBefore_of_mem (member : peer ∈ state.discovered) : state.hadBefore peer = true := by
  rw [hadBefore, Bool.or_eq_true, any_eq_true]
  exact .inr ⟨peer, member, by simp⟩

theorem hadBefore_mono (had : state.hadBefore peer = true)
    (grows : state.discovered ⊆ after.discovered) : after.hadBefore peer = true := by
  rw [hadBefore, Bool.or_eq_true, any_eq_true] at had ⊢
  rcases had with allowed | ⟨old, member, same⟩
  · exact .inl allowed
  · exact .inr ⟨old, grows member, same⟩

theorem hadBefore_congr (same : after.discovered = state.discovered) (peer : PeerInfo) :
    after.hadBefore peer = state.hadBefore peer := by
  unfold hadBefore
  rw [same]

theorem Accounted.pool (accounted : Accounted state) (pool : Pool settings state after) :
    Accounted after := by
  intro peer member
  cases pool with
  | same known discovered =>
    rw [known] at member
    exact (hadBefore_congr discovered peer).trans (accounted peer member)
  | discover peers known discovered =>
    rw [known] at member
    rcases mem_addPeers member with old | new
    · refine hadBefore_mono (accounted peer old) ?_
      rw [discovered]
      exact subset_append_left _ _
    · refine hadBefore_of_mem ?_
      rw [discovered]
      exact mem_append_right _ new
  | other peers had known discovered =>
    rw [known] at member
    refine (hadBefore_congr discovered peer).trans ?_
    rcases mem_addPeers member with old | new
    · exact accounted peer old
    · exact had peer new
  | remove gone known discovered =>
    rw [known] at member
    exact (hadBefore_congr discovered peer).trans (accounted peer (mem_of_mem_erase member))

/-- What a step other than the one that sets the info may do. -/
structure Within (settings : PoolSettings) (state after : Discovering) : Prop where
  pool : Pool settings state after
  info : after.info = state.info

theorem within_same {next : Discovering} (moved : some next = some after)
    (known : next.known = state.known) (discovered : next.discovered = state.discovered)
    (info : next.info = state.info) : Within settings state after := by
  cases moved
  exact ⟨.same known discovered, info⟩

variable {announcer : DhtAnnouncer} {label : Label}

theorem within_stepDht {id : Nat} {label : DhtLabel}
    (moved : state.stepDht settings id announcer label = some after) : Within settings state after := by
  unfold stepDht at moved
  split at moved
  · exact within_same moved rfl rfl rfl
  · exact within_same moved rfl rfl rfl
  · exact within_same moved rfl rfl rfl
  · exact within_same moved rfl rfl rfl
  · cases moved
    unfold takeBatch
    dsimp only
    split
    · exact within_same rfl rfl rfl rfl
    · exact ⟨.discover _ rfl rfl, rfl⟩
  · exact within_same moved rfl rfl rfl
  · cases moved

theorem within_stepPex {conn : Nat} {task : Option PexTask} {label : PexLabel}
    (moved : state.stepPex settings conn task label = some after) : Within settings state after := by
  unfold stepPex at moved
  split at moved
  · cases moved
    split <;> exact within_same rfl rfl rfl rfl
  · cases moved
    split
    · exact within_same rfl rfl rfl rfl
    · exact ⟨.discover _ rfl rfl, rfl⟩
  · cases moved
    split <;> exact within_same rfl rfl rfl rfl
  · cases moved
    split <;> exact within_same rfl rfl rfl rfl
  · cases moved

theorem within_stepLsd {task : LsdTask} {label : LsdLabel}
    (moved : state.stepLsd settings task label = some after) : Within settings state after := by
  unfold stepLsd at moved
  split at moved
  · rcases Option.ite_none_right_eq_some.mp moved with ⟨_, ⟨⟩⟩
    exact within_same rfl rfl rfl rfl
  · exact within_same moved rfl rfl rfl
  · exact within_same moved rfl rfl rfl
  · cases moved
    split <;> exact within_same rfl rfl rfl rfl
  · cases moved
    exact ⟨.discover _ rfl rfl, rfl⟩
  · cases moved

/-- A step sets the info, or leaves it and changes the pool in one of the ways
above. -/
theorem step_cases (moved : step settings state label = some after) :
    (Exists fun info => label = .setInfo info /\ after = { state with info := some info }) \/
      Within settings state after := by
  cases label with
  | setInfo info =>
    cases moved
    exact .inl ⟨info, rfl, rfl⟩
  | close | stop => exact .inr (within_same moved rfl rfl rfl)
  | spawn =>
    rcases Option.ite_none_left_eq_some.mp moved with ⟨_, ⟨⟩⟩
    exact .inr (within_same rfl rfl rfl rfl)
  | dht =>
    rcases Option.bind_eq_some_iff.mp moved with ⟨_, _, taken⟩
    exact .inr (within_stepDht taken)
  | pex => exact .inr (within_stepPex moved)
  | lsd => exact .inr (within_stepLsd moved)
  | hintsLook =>
    cases moved
    right
    split <;> exact within_same rfl rfl rfl rfl
  | hintsAdd =>
    rcases Option.ite_none_right_eq_some.mp moved with ⟨_, ⟨⟩⟩
    exact .inr ⟨.discover _ rfl rfl, rfl⟩
  | addOther peers =>
    rcases Option.ite_none_right_eq_some.mp moved with ⟨had, ⟨⟩⟩
    exact .inr ⟨.other peers (all_eq_true.mp had) rfl rfl, rfl⟩
  | remove peer =>
    cases moved
    exact .inr ⟨.remove peer rfl rfl, rfl⟩

theorem Accounted.step (accounted : Accounted state)
    (moved : step settings state label = some after) : Accounted after := by
  rcases step_cases moved with ⟨info, _, rfl⟩ | within
  · exact accounted
  · exact accounted.pool within.pool

/-! ## A step of a private torrent -/

/-- Nothing goes out that a private torrent may not send, and none of the four
sources brings a peer. -/
structure Silent (state after : Discovering) : Prop where
  discovered : after.discovered = state.discovered
  dht : after.dhtStarted = state.dhtStarted
  pex : after.pexSent = state.pexSent
  lsd : after.lsdSent = state.lsdSent ∨ Exists fun hashes =>
    after.lsdSent = state.lsdSent ++ [hashes] /\ state.infoHash ∉ hashes

/-- Nothing is in progress, and the step was silent. -/
structure Kept (state after : Discovering) : Prop where
  settled : Settled after
  silent : Silent state after

theorem isPublic_eq_false {info : Option Meta.Info} (secret : isPrivate info = true) :
    isPublic info = false := by
  cases info with
  | none => rfl
  | some info =>
    have isTrue : info.isPrivate = some true := by simpa [isPrivate] using secret
    simp [isPublic, isTrue]

section
variable (settled : Settled state)
include settled

theorem Settled.same : Kept state state :=
  ⟨settled, rfl, rfl, rfl, Or.inl rfl⟩

theorem Settled.setAnnouncer {id : Nat} (idle : announcer.isIdle = true) :
    Kept state (state.setAnnouncer id announcer) := by
  refine ⟨⟨?_, settled.pex, settled.lsd, settled.adding, settled.hints⟩, rfl, rfl, rfl, Or.inl rfl⟩
  exact forall_lookup_insert idle settled.dht

theorem Settled.stepDht (secret : isPrivate state.info = true) {id : Nat}
    {label : DhtLabel} (idle : announcer.isIdle = true)
    (moved : state.stepDht settings id announcer label = some after) : Kept state after := by
  unfold Discovering.stepDht at moved
  split at moved
  · cases moved
    refine settled.setAnnouncer ?_
    rw [lookDht, secret, Bool.not_true, Bool.and_false]
    rfl
  · cases idle
  · cases idle
  · cases idle
  · cases idle
  · cases idle
  · cases moved

theorem Settled.stepPex (secret : isPrivate state.info = true) {conn : Nat} {label : PexLabel}
    (moved : state.stepPex settings conn none label = some after) : Kept state after := by
  have disabled : state.pexDisabled settings = true := by rw [pexDisabled, secret, Bool.true_or]
  cases label with
  | arrive | look =>
    simp only [Discovering.stepPex, disabled, if_true] at moved
    cases moved
    exact settled.same
  | ingest | send => cases moved

theorem Settled.setLsd {task : LsdTask}
    (absent : state.infoHash ∉ task.pending) (notAdding : task.isAdding = false) :
    Settled { state with lsd := task } := by
  refine ⟨settled.dht, settled.pex, absent, ?_, settled.hints⟩
  intro addr same
  have isAdding : task = .adding addr := same
  rw [isAdding] at notAdding
  cases notAdding

theorem Settled.stepLsd (secret : isPrivate state.info = true) {label : LsdLabel}
    (moved : state.stepLsd settings state.lsd label = some after) : Kept state after := by
  have hidden := isPublic_eq_false secret
  have pending := settled.lsd
  unfold Discovering.stepLsd at moved
  split at moved
  · rename_i before later isIdle
    rcases Option.ite_none_right_eq_some.mp moved with ⟨others, ⟨⟩⟩
    refine ⟨settled.setLsd ?_ rfl, rfl, rfl, rfl, Or.inl rfl⟩
    rw [lsdInfoHashes, hidden, Bool.and_false, if_neg Bool.false_ne_true, append_nil]
    exact others
  · cases moved
    exact ⟨settled.setLsd not_mem_nil rfl, rfl, rfl, rfl, Or.inl rfl⟩
  · rename_i hash rest isSending
    rw [isSending] at pending
    cases moved
    refine ⟨?_, rfl, rfl, rfl, Or.inr ⟨_, rfl, fun member => pending (mem_of_mem_take member)⟩⟩
    have dropped : Settled { state with
        lsd := .sending ((hash :: rest).drop hashesPerAnnounce) } := settled.setLsd
      (fun member => pending (mem_of_mem_drop member)) rfl
    exact ⟨dropped.dht, dropped.pex, dropped.lsd, dropped.adding, dropped.hints⟩
  · rw [hidden, Bool.not_false, Bool.or_true, if_pos rfl] at moved
    cases moved
    exact settled.same
  · rename_i addr isAdding
    exact absurd isAdding (settled.adding addr)
  · cases moved

end

theorem Settled.step (settled : Settled state) (secret : isPrivate state.info = true)
    (moved : step settings state label = some after) : Kept state after := by
  have unchanged : ∀ {other : Discovering}, other.announcers = state.announcers ->
      other.pex = state.pex -> other.lsd = state.lsd -> other.hinting = state.hinting ->
      other.infoHash = state.infoHash -> Silent state other -> Kept state other := by
    intro other announcers pex lsd hinting infoHash silent
    refine ⟨⟨?_, ?_, ?_, ?_, ?_⟩, silent⟩
    · rw [announcers]
      exact settled.dht
    · rw [pex]
      exact settled.pex
    · rw [lsd, infoHash]
      exact settled.lsd
    · rw [lsd]
      exact settled.adding
    · rw [hinting]
      exact settled.hints
  cases label with
  | setInfo | close | remove =>
    cases moved
    exact unchanged rfl rfl rfl rfl rfl ⟨rfl, rfl, rfl, Or.inl rfl⟩
  | spawn =>
    rcases Option.ite_none_left_eq_some.mp moved with ⟨_, ⟨⟩⟩
    exact settled.setAnnouncer rfl
  | stop id =>
    cases moved
    refine ⟨⟨?_, settled.pex, settled.lsd, settled.adding, settled.hints⟩, rfl, rfl, rfl, Or.inl rfl⟩
    exact fun other found isFound => settled.dht other found (lookup_of_erase isFound)
  | dht =>
    rcases Option.bind_eq_some_iff.mp moved with ⟨_, found, taken⟩
    exact settled.stepDht secret (settled.dht _ _ found) taken
  | pex conn =>
    simp only [step, settled.pex conn] at moved
    exact settled.stepPex secret moved
  | lsd => exact settled.stepLsd secret moved
  | hintsLook =>
    cases moved
    rw [isPublic_eq_false secret]
    exact settled.same
  | hintsAdd =>
    simp only [step, settled.hints, if_neg Bool.false_ne_true] at moved
    cases moved
  | addOther =>
    rcases Option.ite_none_right_eq_some.mp moved with ⟨_, ⟨⟩⟩
    exact unchanged rfl rfl rfl rfl rfl ⟨rfl, rfl, rfl, Or.inl rfl⟩

/-! ## Runs -/

/-- No task is between its look at the info and what it does then. -/
def settled (state : Discovering) : Bool :=
  state.announcers.entries.all (fun entry => entry.2.isIdle) && state.pex.entries.isEmpty &&
    !state.lsd.pending.contains state.infoHash && !state.lsd.isAdding && !state.hinting

theorem settled_of_eq_true (is : state.settled = true) : Settled state := by
  simp only [settled, Bool.and_eq_true, all_eq_true, Bool.not_eq_true'] at is
  rcases is with ⟨⟨⟨⟨dht, pex⟩, lsd⟩, adding⟩, hints⟩
  have elsewhere : state.infoHash ∉ state.lsd.pending := by
    rw [<- contains_iff_mem, lsd]
    exact Bool.false_ne_true
  refine ⟨?_, ?_, elsewhere, ?_, hints⟩
  · intro id announcer found
    exact dht ⟨id, announcer⟩ ((mem_entries_iff _ _ _).mpr found)
  · intro conn
    cases found : state.pex.lookup conn with
    | none => rfl
    | some =>
      have member := (mem_entries_iff _ _ _).mpr found
      rw [isEmpty_iff.mp pex] at member
      cases member
  · intro addr same
    rw [same] at adding
    cases adding

/-- The info of a private torrent is set while no task is between its look at
the info and what it does then, and no info that is not private replaces it. -/
def Careful (state : Discovering) (label : Label) : Prop :=
  match label with
  | .setInfo info =>
    if info.isPrivate = some true then state.settled = true else isPrivate state.info = false
  | .close | .spawn _ _ | .stop _ | .dht _ _ | .pex _ _ | .lsd _ | .hintsLook | .hintsAdd _
  | .addOther _ | .remove _ => True

theorem isPrivate_of_careful (careful : Careful state label) (secret : isPrivate state.info = true)
    (moved : step settings state label = some after) : isPrivate after.info = true := by
  rcases step_cases moved with ⟨info, rfl, rfl⟩ | within
  · by_cases isTrue : info.isPrivate = some true
    · rw [isPrivate, Option.any_some, isTrue]
      rfl
    · simp only [Careful, if_neg isTrue, secret] at careful
      cases careful
  · rw [within.info]
    exact secret

theorem settled_of_careful (careful : Careful state label)
    (before : isPrivate state.info = true -> Settled state) (moved : step settings state label = some after)
    (secret : isPrivate after.info = true) : Settled after := by
  rcases step_cases moved with ⟨info, rfl, rfl⟩ | within
  · have isTrue : info.isPrivate = some true := by simpa [isPrivate] using secret
    simp only [Careful, if_pos isTrue] at careful
    have ready := settled_of_eq_true careful
    exact ⟨ready.dht, ready.pex, ready.lsd, ready.adding, ready.hints⟩
  · rw [within.info] at secret
    exact ((before secret).step secret moved).settled

/-- In every run in which the info of a private torrent is set while no task is
between its look at the info and what it does then, no step from there on brings
a peer from the DHT, from peer exchange, from local service discovery or from
the hints, starts a DHT announce, sends a `ut_pex` message, or announces the
hash to the local network; and every peer of a barred source that is in the
pool was brought before. -/
theorem private_silent {labels : List Label} {label : Label}
    (run : (machine settings).RunsTo Careful labels state)
    (secret : isPrivate state.info = true) (careful : Careful state label)
    (moved : step settings state label = some after) :
    isPrivate after.info = true ∧ after.discovered = state.discovered ∧
      (forall peer, peer ∈ after.known -> peer.source.barred = true ->
        Exists fun old => old ∈ state.discovered ∧ old.addr = peer.addr ∧ old.source = peer.source) ∧
      after.dhtStarted = state.dhtStarted ∧ after.pexSent = state.pexSent ∧
      forall hashes, hashes ∈ after.lsdSent -> hashes ∈ state.lsdSent ∨
        state.infoHash ∉ hashes := by
  have invariant : (isPrivate state.info = true -> Settled state) /\ Accounted state := by
    refine run.stateInvariant (motive := fun state =>
      (isPrivate state.info = true -> Settled state) /\ Accounted state) ?_ ?_
    · rintro first ⟨infoHash, info, rfl⟩
      refine ⟨fun _ => settled_of_eq_true ?_, ?_⟩
      · rfl
      · intro peer member
        cases member
    · intro before label later holds careful moved
      exact ⟨settled_of_careful careful holds.1 moved, holds.2.step moved⟩
  have kept := (invariant.1 secret).step secret moved
  refine ⟨isPrivate_of_careful careful secret moved, kept.silent.discovered, ?_,
    kept.silent.dht, kept.silent.pex, ?_⟩
  · intro peer member barred
    have had := invariant.2.step moved peer member
    rw [hadBefore, barred, Bool.not_true, Bool.false_or, kept.silent.discovered, any_eq_true] at had
    rcases had with ⟨old, isOld, same⟩
    rw [Bool.and_eq_true, beq_iff_eq, beq_iff_eq] at same
    exact ⟨old, isOld, same⟩
  · intro hashes member
    rcases kept.silent.lsd with same | ⟨sent, same, absent⟩
    · rw [same] at member
      exact .inl member
    · rw [same, mem_append, mem_singleton] at member
      rcases member with old | new
      · exact .inl old
      rw [new]
      exact .inr absent

instance (state : Discovering) (label : Label) : Decidable (Careful state label) :=
  match label with
  | .setInfo info => inferInstanceAs (Decidable (if info.isPrivate = some true then
      state.settled = true else isPrivate state.info = false))
  | .close | .spawn _ _ | .stop _ | .dht _ _ | .pex _ _ | .lsd _ | .hintsLook | .hintsAdd _
  | .addOther _ | .remove _ => isTrue trivial

def privateInfo : Meta.Info :=
  { name := [97]
    pieceLength := 16384
    pieces := []
    files := []
    singleFile := true
    isPrivate := some true
    source := []
    metaVersion := 1
    fileTreeRaw := none }

def magnet : Discovering :=
  { infoHash := Vector.replicate 20 1 }

theorem magnet_init (settings : PoolSettings) : (machine settings).init magnet :=
  ⟨_, none, rfl⟩

def bothHashes : TorrentKeys :=
  { v1 := some (Vector.replicate 20 1), v2Short := some (Vector.replicate 20 2) }

/-- An announcer is taking peers for the first of two hashes. -/
def traversal : List Label :=
  [.spawn 0 bothHashes, .dht 0 (.look true), .dht 0 (.announce true)]

def dhtAddr : SocketAddr :=
  .v4 { ip := 0x0a000001, port := 6881 }

/-- The info arrives after the announcer has gone through both hashes. -/
def afterTraversal : List Label :=
  traversal ++ [.dht 0 (.batch [dhtAddr]), .dht 0 .endTraversal, .dht 0 (.announce true),
    .dht 0 .endTraversal, .dht 0 (.announce false), .setInfo privateInfo]

theorem private_silent_magnet : let reached := ((machine {}).exec magnet afterTraversal).getD magnet
    isPrivate reached.info = true ∧ reached.known = [dhtPeer dhtAddr] ∧
      forall after, step {} reached (.dht 0 (.look true)) = some after ->
        after.dhtStarted = reached.dhtStarted := by
  have run : (machine {}).RunsTo Careful afterTraversal
      (((machine {}).exec magnet afterTraversal).getD magnet) :=
    .of_exec (magnet_init _) (by decide +kernel) rfl
  have secret : isPrivate (((machine {}).exec magnet afterTraversal).getD magnet).info = true :=
    by decide +kernel
  have careful : Careful (((machine {}).exec magnet afterTraversal).getD magnet)
      (.dht 0 (.look true)) := trivial
  refine ⟨secret, by decide +kernel, fun after moved => ?_⟩
  exact (private_silent run secret careful moved).2.2.2.1

/-- The info arrives while the announcer takes peers for the first hash.  It
goes on to add them, and starts the announce for the second hash. -/
theorem private_still_announced :
    let before := ((machine {}).exec magnet (traversal ++ [.setInfo privateInfo])).getD magnet
    let labels := [Label.dht 0 (.batch [dhtAddr]), .dht 0 .endTraversal, .dht 0 (.announce true)]
    let reached := ((machine {}).exec before labels).getD before
    (machine {}).RunsTo Machine.always (traversal ++ [.setInfo privateInfo] ++ labels) reached ∧
      isPrivate before.info = true ∧ before.known = [] ∧
      before.dhtStarted = [Vector.replicate 20 1] ∧ reached.known = [dhtPeer dhtAddr] ∧
      reached.dhtStarted = [Vector.replicate 20 1, Vector.replicate 20 2] := by
  refine ⟨.of_exec (magnet_init _) ((machine {}).permits_always _ magnet) rfl, ?_⟩
  decide +kernel

end Discovering
end TorrentPlayer.Discovery
