import TorrentPlayer.Discovery.AnnouncerRuns
import TorrentPlayer.Core.Torrent

namespace TorrentPlayer.Discovery

open Library DispatcherInner Dispatcher FiniteMap List Option

/-!
# The Completed event

A tracker counts a download when the client announces `Completed` once.  The
event starts at the piece table: the adapter between a torrent and its sources
(`TorrentSourcesAdapter` of `wt-core/src/client.rs`) reports the edge with each
snapshot, `push_snapshot` of `wt-core/src/sources/mod.rs` hands it on, and the
dispatcher then keeps the event in the slot until a tracker takes it.

The adapter answers `false` whenever it is asked for the edge.  So no snapshot
carries it, and the event is never announced.
-/

structure TorrentSourcesAdapter where
  torrent : Core.Torrent
  infoHash : InfoHash
  peerId : PeerId
  listenPort : Nat
  peersLowWater : Nat
  knownPeers : Nat
  seeding : Bool
  bytesReadData : Int
  bytesWrittenData : Int

namespace TorrentSourcesAdapter

variable (adapter : TorrentSourcesAdapter)

def left : Int :=
  match adapter.torrent.info with
  | none => -1
  | some info =>
    let completed := adapter.torrent.pieces.zipIdx.foldl (fun sum entry =>
      if entry.1.complete then sum + (info.pieceLen entry.2 : Int) else sum) 0
    max ((info.totalLength : Int) - completed) 0

/-- The first four bytes of the hash, as a signed number. -/
def announceKey : Int :=
  let b := fun index : Fin 4 => (adapter.infoHash[index.val].toNat : Int)
  let key := ((b 0 * 256 + b 1) * 256 + b 2) * 256 + b 3
  if key < 2 ^ 31 then key else key - 2 ^ 32

def allComplete (torrent : Core.Torrent) : Bool :=
  torrent.pieces.all Core.PieceEntry.complete

def completed : Bool :=
  adapter.seeding || (adapter.torrent.info.isSome && !adapter.torrent.pieces.isEmpty &&
      allComplete adapter.torrent)

def needData : Bool :=
  !adapter.torrent.dataDownloadDisallowed && !adapter.completed

def wantPeers : Bool :=
  decide (adapter.knownPeers <= adapter.peersLowWater)

def newlyCompleted (_ : TorrentSourcesAdapter) : Bool :=
  false

/-- What `push_snapshot` hands to the dispatcher. -/
def snapshot (infoHash : InfoHash) (port : Nat) : TorrentAnnounceSnapshot :=
  { infoHash := infoHash
    peerId := adapter.peerId
    downloaded := adapter.bytesReadData
    left := adapter.left
    uploaded := adapter.bytesWrittenData
    port := port
    key := adapter.announceKey
    needData := adapter.needData
    wantPeers := adapter.wantPeers
    completed := adapter.completed
    newlyCompleted := adapter.newlyCompleted }

end TorrentSourcesAdapter

/-! ## Torrents and the dispatcher -/

/-- An announce that was picked, with what had happened before: its slot owes
the event, or a tracker has taken the event from this slot. -/
structure Dispatched where
  announce : Announce
  owed : Bool
  taken : Bool

/-- The announce carries the event if its slot owes it, and not after a
tracker took it. -/
def Dispatched.Right (entry : Dispatched) : Prop :=
  (entry.owed = true -> entry.announce.event = .completed) /\
    (entry.taken = true -> entry.announce.event ≠ .completed)

/-- The torrents of a client, the hashes they are registered under, and the
dispatcher.  The other fields are not part of the code and record the past. -/
structure Announcing where
  dispatcher : Dispatcher := {}
  torrents : List TorrentSourcesAdapter := []
  registered : FiniteMap InfoHash Nat := ∅
  /-- Torrents that went from some piece missing to none. -/
  finished : Finset Nat := ∅
  /-- Those of which a snapshot was pushed since. -/
  told : Finset Nat := ∅
  /-- Slots whose first announce succeeded, by key and epoch. -/
  started : Finset (TorrentAnnounceKey × Nat) := ∅
  /-- Slots that announced the completion with success. -/
  taken : Finset (TorrentAnnounceKey × Nat) := ∅
  log : List Dispatched := []

namespace Announcing

inductive Label where
  | add (adapter : TorrentSourcesAdapter)
  /-- Hash results, completion refreshes, new peers: a torrent is changed. -/
  | change (place : Nat) (adapter : TorrentSourcesAdapter)
  | register (infoHash : InfoHash) (place : Nat)
  | unregister (infoHash : InfoHash)
  | pushSnapshot (infoHash : InfoHash) (port : Nat) (now : Nat)
  | addTrackers (infoHash : InfoHash) (urls : List String) (now : Nat)
  | announceNow (infoHash : InfoHash) (now : Nat)
  | resetClients
  | dispatch (order : List TorrentAnnounceKey) (now : Nat)
  | lookupClient (place : Nat)
  | connect (place : Nat) (error : Option String) (now : Nat)
  | finish (place : Nat) (result : Except String AnnounceResponse) (now : Nat)

def completes (before after : TorrentSourcesAdapter) : Bool :=
  before.torrent.info.isSome && !TorrentSourcesAdapter.allComplete before.torrent &&
    TorrentSourcesAdapter.allComplete after.torrent

def torrentOf (state : Announcing) (key : TorrentAnnounceKey) : Option Nat :=
  state.registered.lookup key.infoHash

/-- The slot still has to announce the completion: its first announce
succeeded, the torrent completed and was reported since, and no tracker has
taken the event from this slot. -/
def owes (state : Announcing) (key : TorrentAnnounceKey) (epoch : Nat) : Bool :=
  decide ((key, epoch) ∈ state.started) &&
    (state.torrentOf key).any (fun place => decide (place ∈ state.told)) &&
    !decide ((key, epoch) ∈ state.taken)

def record (state : Announcing) (announce : Announce) : Dispatched :=
  { announce := announce
    owed := state.owes announce.key announce.epoch
    taken := decide ((announce.key, announce.epoch) ∈ state.taken) }

def mark (event : AnnounceEvent) (marked : AnnounceEvent) (slot : TorrentAnnounceKey × Nat)
    (set : Finset (TorrentAnnounceKey × Nat)) : Finset (TorrentAnnounceKey × Nat) :=
  if event = marked then insert slot set else set

def step (state : Announcing) : Label -> Option Announcing
  | .add adapter => some { state with torrents := state.torrents ++ [adapter] }
  | .change place adapter =>
    match state.torrents[place]? with
    | none => none
    | some before =>
      let registered := state.registered.entries.any (fun entry => entry.2 == place)
      some { state with
        torrents := state.torrents.set place adapter
        finished :=
          if completes before adapter && registered then insert place state.finished
          else state.finished }
  | .register infoHash place =>
    if place < state.torrents.length /\ (state.registered.lookup infoHash).isNone then
      some { state with registered := state.registered.insert infoHash place }
    else none
  | .unregister infoHash =>
    (state.dispatcher.step (.removeTorrent infoHash)).map (fun dispatcher =>
      { state with
        dispatcher := dispatcher
        registered := state.registered.erase infoHash })
  | .pushSnapshot infoHash port now =>
    match state.registered.lookup infoHash with
    | none => none
    | some place =>
      match state.torrents[place]? with
      | none => none
      | some adapter =>
        (state.dispatcher.step (.updateTorrent (adapter.snapshot infoHash port) now)).map (fun dispatcher =>
          { state with
            dispatcher := dispatcher
            told := if place ∈ state.finished then insert place state.told
              else state.told })
  | .addTrackers infoHash urls now =>
    (state.dispatcher.step (.addTrackers infoHash urls now)).map (fun dispatcher =>
      { state with dispatcher := dispatcher })
  | .announceNow infoHash now =>
    (state.dispatcher.step (.announceNow infoHash now)).map (fun dispatcher =>
      { state with dispatcher := dispatcher })
  | .resetClients =>
    (state.dispatcher.step .resetClients).map (fun dispatcher =>
      { state with dispatcher := dispatcher })
  | .dispatch order now =>
    (state.dispatcher.step (.dispatch order now)).map (fun dispatcher =>
      { state with
        dispatcher := dispatcher
        log := state.log ++
          ((state.dispatcher.inner.dispatchOnce order now).2.map state.record) })
  | .lookupClient place =>
    (state.dispatcher.step (.lookupClient place)).map (fun dispatcher =>
      { state with dispatcher := dispatcher })
  | .connect place error now =>
    (state.dispatcher.step (.connect place error now)).map (fun dispatcher =>
      { state with dispatcher := dispatcher })
  | .finish place result now =>
    match state.dispatcher.running[place]? with
    | none => none
    | some running =>
      (state.dispatcher.step (.finish place result now)).map (fun dispatcher =>
        match result with
        | .error _ => { state with dispatcher := dispatcher }
        | .ok _ =>
          let slot := (running.announce.key, running.announce.epoch)
          { state with
            dispatcher := dispatcher
            started := mark running.announce.event .started slot state.started
            taken := mark running.announce.event .completed slot state.taken })

def machine : Machine Announcing Label where
  init := fun state => state = {}
  step := step

/-! ## No announce carries the event -/

def Plain (inner : DispatcherInner) : Prop :=
  ∀ key slot, inner.slots.lookup key = some slot -> slot.event ≠ .completed

variable {inner : DispatcherInner} {dispatcher : Dispatcher} {state after : Announcing}

theorem Plain.mapSlots (plain : Plain inner) {change : TorrentAnnounceKey -> SlotState -> SlotState}
    (keeps : ∀ key slot, (change key slot).event = slot.event) : Plain (inner.mapSlots change) := by
  intro key slot found
  rw [DispatcherInner.mapSlots, lookup_retain] at found
  rcases bind_eq_some_iff.mp found with ⟨old, isOld, same⟩
  rw [<- Option.some.inj same, keeps]
  exact plain key old isOld

/-- A snapshot of the client reports no edge, so it leaves every event alone. -/
theorem Plain.updateTorrent (plain : Plain inner) {snap : TorrentAnnounceSnapshot}
    (noEdge : snap.newlyCompleted = false) (now : Nat) : Plain (inner.updateTorrent snap now) := by
  unfold DispatcherInner.updateTorrent
  dsimp only
  rw [noEdge]
  have known : Plain { inner with snapshots := inner.snapshots.insert snap.infoHash snap } := plain
  split
  · apply known.mapSlots
    intro key slot
    split <;> rfl
  · exact known

theorem Plain.addTracker (plain : Plain inner) (infoHash : InfoHash) (now : Nat) (url : String) :
    Plain (inner.addTracker infoHash now url) := by
  unfold DispatcherInner.addTracker
  dsimp only
  split
  · exact plain
  · exact forall_lookup_insert nofun plain

theorem Plain.addTrackers (infoHash : InfoHash) (now : Nat) (urls : List String) :
    ∀ {inner : DispatcherInner}, Plain inner -> Plain (inner.addTrackers infoHash urls now) := by
  induction urls with
  | nil => exact fun plain => plain
  | cons url urls ih => exact fun plain => ih (plain.addTracker infoHash now url)

theorem Plain.removeTorrent (plain : Plain inner) (infoHash : InfoHash) :
    Plain (inner.removeTorrent infoHash).1 := by
  intro key slot found
  have whole : (inner.slots.retain (fun key slot =>
      if key.infoHash = infoHash then none else some slot)).lookup key = some slot := found
  rw [lookup_retain] at whole
  rcases bind_eq_some_iff.mp whole with ⟨old, isOld, same⟩
  rcases ite_none_left_eq_some.mp same with ⟨_, same⟩
  rw [<- Option.some.inj same]
  exact plain key old isOld

theorem Plain.dispatchKey {picked : List Announce} (plain : Plain inner)
    (pickedPlain : ∀ announce ∈ picked, announce.event ≠ .completed) (key : TorrentAnnounceKey) :
    Plain (dispatchKey (inner, picked) key).1 /\
    ∀ announce, announce ∈ (dispatchKey (inner, picked) key).2 -> announce.event ≠ .completed := by
  unfold DispatcherInner.dispatchKey
  dsimp only
  split
  · exact ⟨plain, pickedPlain⟩
  split
  · exact ⟨plain, pickedPlain⟩
  rename_i slot found
  split
  · exact ⟨plain, pickedPlain⟩
  split
  · exact ⟨plain, pickedPlain⟩
  have event := plain key slot found
  refine ⟨?_, ?_⟩
  · exact forall_lookup_insert event plain
  · exact forall_mem_append.mpr ⟨pickedPlain, forall_mem_singleton.mpr event⟩

theorem Plain.dispatchKeys (keys : List TorrentAnnounceKey) :
    ∀ {inner : DispatcherInner} {picked : List Announce}, Plain inner ->
    (∀ announce ∈ picked, announce.event ≠ .completed) ->
    Plain (keys.foldl DispatcherInner.dispatchKey (inner, picked)).1 /\
      ∀ announce, announce ∈ (keys.foldl DispatcherInner.dispatchKey (inner, picked)).2 ->
        announce.event ≠ .completed := by
  induction keys with
  | nil => exact fun plain pickedPlain => ⟨plain, pickedPlain⟩
  | cons key keys ih =>
    intro inner picked plain pickedPlain
    have one := plain.dispatchKey pickedPlain key
    exact ih one.1 one.2

theorem Plain.dispatchOnce (plain : Plain inner) (order : List TorrentAnnounceKey) (now : Nat) :
    Plain (inner.dispatchOnce order now).1 /\
    ∀ announce ∈ (inner.dispatchOnce order now).2, announce.event ≠ .completed :=
  Plain.dispatchKeys _ plain nofun

theorem Plain.finishAnnounce (plain : Plain inner) (key : TorrentAnnounceKey)
    (event : AnnounceEvent) (epoch : Nat) (result : Except String AnnounceResponse) (now : Nat) :
    Plain (inner.finishAnnounce key event epoch result now).1 := by
  have released : Plain (inner.release key.url) := by
    rw [Plain, (Accounted.release_slots inner key.url).1]
    exact plain
  unfold DispatcherInner.finishAnnounce
  dsimp only
  split
  · exact released
  rename_i slot found
  have before := released key slot found
  split
  · exact released
  cases result with
  | ok =>
    refine forall_lookup_insert ?_ released
    unfold succeeded
    dsimp only
    split
    · nofun
    · exact before
  | error =>
    refine forall_lookup_insert ?_ released
    unfold failed
    split
    · nofun
    · exact before

def NoEdge (label : Dispatcher.Label) : Prop :=
  ∀ snap now, label = .updateTorrent snap now -> snap.newlyCompleted = false

/-- What a step of the dispatcher keeps, when its snapshots report no edge. -/
structure Quiet (dispatcher : Dispatcher) : Prop where
  slots : Plain dispatcher.inner
  running : ∀ run ∈ dispatcher.running, run.announce.event ≠ .completed

theorem Quiet.setStage (quiet : Quiet dispatcher) {place : Nat} {run : Running}
    (found : dispatcher.running[place]? = some run) (stage : Stage) :
    Quiet (dispatcher.setStage place run stage) := by
  refine ⟨quiet.slots, ?_⟩
  intro other member
  rcases mem_or_eq_of_mem_set member with old | new
  · exact quiet.running other old
  rw [new]
  exact quiet.running run (mem_of_getElem? found)

theorem Quiet.report (quiet : Quiet dispatcher) (place : Nat) (announce : Announce)
    (result : Except String AnnounceResponse) (now : Nat) :
    Quiet (dispatcher.report place announce result now) := by
  refine ⟨quiet.slots.finishAnnounce _ _ _ _ _, ?_⟩
  intro other member
  exact quiet.running other (mem_of_mem_eraseIdx member)

theorem Quiet.step {after : Dispatcher} (quiet : Quiet dispatcher) {label : Dispatcher.Label}
    (noEdge : NoEdge label) (moved : dispatcher.step label = some after) : Quiet after := by
  cases label <;> simp only [Dispatcher.step] at moved
  case addTrackers infoHash urls now =>
    cases moved
    exact ⟨Plain.addTrackers infoHash now urls quiet.slots, quiet.running⟩
  case updateTorrent snap now =>
    cases moved
    exact ⟨quiet.slots.updateTorrent (noEdge snap now rfl) now, quiet.running⟩
  case announceNow =>
    cases moved
    refine ⟨quiet.slots.mapSlots ?_, quiet.running⟩
    intro key slot
    split <;> rfl
  case removeTorrent infoHash =>
    cases moved
    refine ⟨quiet.slots.removeTorrent infoHash, ?_⟩
    intro other member
    rcases mem_map.mp member with ⟨old, isOld, same⟩
    rw [<- same, Accounted.orphan_announce]
    exact quiet.running old isOld
  case resetClients =>
    cases moved
    exact ⟨quiet.slots, quiet.running⟩
  case dispatch order now =>
    split at moved
    · cases moved
      have picked := quiet.slots.dispatchOnce order now
      exact ⟨picked.1, forall_mem_append.mpr ⟨quiet.running, forall_mem_map.mpr picked.2⟩⟩
    · cases moved
  case lookupClient =>
    split at moved
    · cases moved
    rename_i run found
    split at moved
    · cases moved
    split at moved <;> cases moved
    · exact quiet.setStage found _
    · exact quiet.setStage found _
  case connect place error now =>
    split at moved
    · cases moved
    rename_i run found
    split at moved
    · cases moved
    cases error with
    | none =>
      cases moved
      let known : Dispatcher :=
        { dispatcher with inner := { dispatcher.inner with
          clients := insert run.announce.key.url dispatcher.inner.clients } }
      have still : Quiet known := ⟨quiet.slots, quiet.running⟩
      exact still.setStage found _
    | some message =>
      cases moved
      exact quiet.report place run.announce (.error message) now
  case finish place result now =>
    split at moved
    · cases moved
    rename_i run found
    split at moved
    · cases moved
    cases moved
    exact quiet.report place run.announce result now

/-! ## What a step does -/

/-- A step moves the dispatcher by at most one of its labels, adds to the log
what a pass of the loop picks, and marks a slot as settled only for an announce
of the event. -/
structure Moves (state after : Announcing) (label : Label) : Prop where
  dispatcher : after.dispatcher = state.dispatcher ∨
    Exists fun inner => NoEdge inner /\ state.dispatcher.step inner = some after.dispatcher
  log : after.log = state.log ∨ Exists fun order => Exists fun now =>
    label = .dispatch order now /\ after.log =
      state.log ++ (state.dispatcher.inner.dispatchOnce order now).2.map state.record
  taken : after.taken = state.taken ∨ Exists fun run => run ∈ state.dispatcher.running /\
    run.announce.event = .completed

variable {labels : List Label} {permitted : Announcing -> Label -> Prop} {label : Label}

theorem Moves.of_map {inner : Dispatcher.Label} {change : Dispatcher -> Announcing}
    (moved : (state.dispatcher.step inner).map change = some after) (noEdge : NoEdge inner)
    (fields : ∀ dispatcher, (change dispatcher).dispatcher = dispatcher /\
      (change dispatcher).log = state.log /\ (change dispatcher).taken = state.taken) :
    Moves state after label := by
  rcases map_eq_some_iff.mp moved with ⟨dispatcher, stepped, same⟩
  have parts := fields dispatcher
  rw [same] at parts
  constructor
  · refine .inr ⟨inner, noEdge, ?_⟩
    rw [parts.1]
    exact stepped
  · exact .inl parts.2.1
  · exact .inl parts.2.2

theorem step_moves (moved : state.step label = some after) : Moves state after label := by
  cases label <;> simp only [Announcing.step] at moved
  case add =>
    cases moved
    exact ⟨Or.inl rfl, Or.inl rfl, Or.inl rfl⟩
  case change =>
    split at moved
    · cases moved
    cases moved
    exact ⟨Or.inl rfl, Or.inl rfl, Or.inl rfl⟩
  case register =>
    rcases ite_none_right_eq_some.mp moved with ⟨_, ⟨⟩⟩
    exact ⟨Or.inl rfl, Or.inl rfl, Or.inl rfl⟩
  case unregister | addTrackers | announceNow | resetClients =>
    exact .of_map moved (fun _ _ wrong => by cases wrong) (fun _ => ⟨rfl, rfl, rfl⟩)
  case pushSnapshot =>
    split at moved
    · cases moved
    split at moved
    · cases moved
    refine .of_map moved ?_ (fun _ => ⟨rfl, rfl, rfl⟩)
    intro snap time same
    cases same
    rfl
  case dispatch order now =>
    rcases map_eq_some_iff.mp moved with ⟨_, stepped, same⟩
    rw [<- same]
    refine ⟨Or.inr ⟨.dispatch order now, ?_, stepped⟩, Or.inr ⟨order, now, rfl, rfl⟩, Or.inl rfl⟩
    intro _ _ wrong
    cases wrong
  case lookupClient | connect =>
    exact .of_map moved (fun _ _ wrong => by cases wrong) (fun _ => ⟨rfl, rfl, rfl⟩)
  case finish place result now =>
    split at moved
    · cases moved
    rename_i run found
    cases result with
    | error message => exact .of_map moved (fun _ _ wrong => by cases wrong) (fun _ => ⟨rfl, rfl, rfl⟩)
    | ok response =>
      rcases map_eq_some_iff.mp moved with ⟨_, stepped, rfl⟩
      refine ⟨Or.inr ⟨_, ?_, stepped⟩, Or.inl rfl, ?_⟩
      · intro _ _ wrong
        cases wrong
      · by_cases event : run.announce.event = .completed
        · exact .inr ⟨run, mem_of_getElem? found, event⟩
        · exact .inl (if_neg event)

/-- No announce ever carried the event, and no tracker took it. -/
structure Silent (state : Announcing) : Prop where
  quiet : Quiet state.dispatcher
  log : ∀ entry ∈ state.log, entry.announce.event ≠ .completed
  taken : state.taken = ∅

theorem Silent.step (silent : Silent state) (moved : state.step label = some after) : Silent after := by
  have moves := step_moves moved
  constructor
  · rcases moves.dispatcher with same | ⟨_, noEdge, stepped⟩
    · rw [same]
      exact silent.quiet
    · exact silent.quiet.step noEdge stepped
  · rcases moves.log with same | ⟨order, now, _, same⟩
    · rw [same]
      exact silent.log
    · rw [same]
      have picked := silent.quiet.slots.dispatchOnce order now
      exact forall_mem_append.mpr ⟨silent.log, forall_mem_map.mpr picked.2⟩
  · rcases moves.taken with same | ⟨run, member, event⟩
    · exact same.trans silent.taken
    · exact absurd event (silent.quiet.running run member)

theorem silent_run (run : machine.RunsTo permitted labels state) : Silent state := by
  refine run.stateInvariant (fun first initial => ?_) (fun _ _ _ silent _ moved => silent.step moved)
  rw [initial]
  refine ⟨⟨?_, ?_⟩, ?_, rfl⟩
  · intro key slot found
    cases found
  · intro other member
    cases member
  · intro entry member
    cases member

/-- In no run is an announce right that owes the event: it goes out without it.  The others, which
do not owe it, are right. -/
theorem right_iff_not_owed (run : machine.RunsTo permitted labels state) {entry : Dispatched}
    (member : entry ∈ state.log) : entry.Right <-> entry.owed = false := by
  have event := (silent_run run).log entry member
  constructor
  · intro right
    cases owed : entry.owed with
    | false => rfl
    | true => exact absurd (right.1 owed) event
  · intro none_
    constructor
    · intro owed
      rw [none_] at owed
      cases owed
    · exact fun _ => event

def exampleAdapter (complete : Bool) : TorrentSourcesAdapter :=
  { torrent :=
      { info := some { pieceLength := 16384, totalLength := 16384 }
        pieces := [{ complete := complete }] }
    infoHash := exampleHash
    peerId := Vector.replicate 20 2
    listenPort := 6881
    peersLowWater := 50
    knownPeers := 100
    seeding := false
    bytesReadData := 0
    bytesWrittenData := 0 }

def exampleKey : TorrentAnnounceKey :=
  { url := "http://t/a", infoHash := exampleHash }

/-- The torrent is announced, completes, and a snapshot is pushed. -/
def downloaded : List Label :=
  [.add (exampleAdapter false), .register exampleHash 0, .pushSnapshot exampleHash 6881 0,
   .addTrackers exampleHash ["http://t/a"] 0, .dispatch [exampleKey] 0,
   .lookupClient 0, .connect 0 none 0, .finish 0 (.ok { interval := 60, peers := [] }) 0,
   .change 0 (exampleAdapter true), .pushSnapshot exampleHash 6881 1000]

theorem right_iff_not_owed_downloaded :
    let reached := (machine.exec {} (downloaded ++ [.dispatch [exampleKey] 60000])).getD {}
    reached.log.map Dispatched.owed = [false, true] ∧
      forall entry, entry ∈ reached.log -> (entry.Right <-> entry.owed = false) := by
  have run : machine.RunsTo Machine.always (downloaded ++ [.dispatch [exampleKey] 60000])
      ((machine.exec {} (downloaded ++ [.dispatch [exampleKey] 60000])).getD {}) :=
    .of_exec rfl (machine.permits_always _ _) rfl
  exact ⟨rfl, fun entry => right_iff_not_owed run⟩

/-- The next announce of that torrent is a regular one. -/
theorem completed_never_announced :
    let reached := (machine.exec {} (downloaded ++ [.dispatch [exampleKey] 60000])).getD {}
    machine.RunsTo Machine.always (downloaded ++ [.dispatch [exampleKey] 60000]) reached ∧
      Exists fun entry => entry ∈ reached.log ∧ entry.owed = true ∧
        entry.announce.event = .none ∧ ¬ entry.Right := by
  have run : machine.RunsTo Machine.always (downloaded ++ [.dispatch [exampleKey] 60000])
      ((machine.exec {} (downloaded ++ [.dispatch [exampleKey] 60000])).getD {}) :=
    .of_exec rfl (machine.permits_always _ _) rfl
  refine ⟨run, ?_⟩
  have member : (true, AnnounceEvent.none) ∈ ((machine.exec {}
      (downloaded ++ [.dispatch [exampleKey] 60000])).getD {}).log.map
      (fun entry => (entry.owed, entry.announce.event)) := by
    exact mem_cons_of_mem _ (mem_singleton.mpr rfl)
  rcases mem_map.mp member with ⟨entry, isEntry, same⟩
  have owed : entry.owed = true := congrArg Prod.fst same
  have event : entry.announce.event = .none := congrArg Prod.snd same
  refine ⟨entry, isEntry, owed, event, fun right => ?_⟩
  have impossible := right.1 owed
  rw [event] at impossible
  cases impossible

end Announcing
end TorrentPlayer.Discovery
