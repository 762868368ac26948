import TorrentPlayer.Discovery.Sources
import TorrentPlayer.Library.LockOrder

namespace TorrentPlayer.Discovery.SourceLocks

open Library LockOrder List

/-!
# The locks of the discovery sources

Which locks the calls of `Sources`, the peers loop and the DHT announcers take,
and under which other lock.  What the locks do not decide (what the registry
knows, how many hashes and trackers there are) is an argument of the call.
-/

/-- The lock of the registry, of one torrent's entry and of the dispatcher. -/
inductive Lock
  | registry
  | entry (index : Nat)
  | dispatcher
  deriving DecidableEq

/-- A guard under which no other lock is taken. -/
def alone (lock : Lock) : Scope Lock :=
  ⟨lock, []⟩

/-- The entry is locked twice, once if it is paused, and not at all without a DHT. -/
def spawnDhtAnnouncer (entry : Nat) (locked : Fin 3) : List (Scope Lock) :=
  alone .registry :: List.replicate locked (alone (.entry entry))

/-- The guard of the last section is a temporary of an `if let`, and lives while the
entry it found is locked. -/
def startWsTracker (found : Option Nat) : List (Scope Lock) :=
  [alone .registry, alone .registry, alone .registry, ⟨.registry, found.toList.map .entry⟩]

/-- The guards of a call, one after the other.  A call that finds `Sources` closed or the
torrent unknown is `refused`; one that finds the entry paused has no hashes and no announcer. -/
inductive Runs : List (Scope Lock) -> Prop
  | refused : Runs [alone .registry]
  | registerTorrent (entry hashes : Nat) (webSeeds : Bool) (wsUrls : List (Option Nat))
      (announcer : Fin 3) :
      -- A snapshot and the trackers of every hash.
      Runs (alone .registry :: List.replicate (2 * hashes) (alone .dispatcher) ++
        List.replicate webSeeds.toNat (alone (.entry entry)) ++ alone .registry ::
        wsUrls.flatMap startWsTracker ++ spawnDhtAnnouncer entry announcer)
  | refreshTorrent (entry : Nat) (registered : List Bool) :
      Runs (alone .registry :: alone (.entry entry) :: registered.flatMap (fun known =>
        alone .registry :: List.replicate known.toNat (alone .dispatcher)))
  | rediscover (entry hashes : Nat) (announcer : Option (Fin 3)) :
      Runs (alone .registry :: ⟨.entry entry, List.replicate (2 * hashes) .dispatcher⟩ ::
        announcer.toList.flatMap (spawnDhtAnnouncer entry))
  | addTrackers (entry : Option Nat) (hashes : Nat) (wsUrls : List (Option Nat)) :
      Runs (alone .registry :: entry.toList.flatMap (fun entry => [alone (.entry entry),
        alone (.entry entry)]) ++ List.replicate hashes (alone .dispatcher) ++
        wsUrls.flatMap startWsTracker)
  | unregisterTorrent (entry : Option Nat) (hashes : Nat) :
      Runs (alone .registry :: List.replicate hashes (alone .dispatcher) ++
        entry.toList.map (fun entry => alone (.entry entry)))
  | close (entries : List (Nat × Nat)) :
      Runs (alone .registry :: entries.map (fun (entry, hashes) =>
        ⟨.entry entry, List.replicate hashes .dispatcher⟩) ++ [alone .dispatcher])
  | peersLoop (found : Option Nat) : Runs [⟨.registry, found.toList.map .entry⟩]
  | dhtRound (entry : Nat) : Runs [alone .registry, alone (.entry entry)]
  | dispatch : Runs [alone .dispatcher]

/-- The guards of a section of `Sources`.  That of `announceEntry` is held while the
dispatcher is told every hash twice. -/
def guards (sources : Sources) : Section -> List (Scope Lock)
  | .pushSnapshot _ | .addTrackers _ _ | .announceNow _ | .removeSlots _ => [alone .dispatcher]
  | .openClient _ _ | .askAnnouncer _ | .pushIfRegistered _ => [alone .registry]
  | .storeClient primary _ =>
    [⟨.registry, (sources.registry.torrents.lookup primary).toList.map .entry⟩]
  | .announceEntry entry =>
    let hashes := sources.entries[entry]?.elim 0 (fun e => if e.paused then 0 else e.keys.allShort.length)
    [⟨.entry entry, List.replicate (2 * hashes) .dispatcher⟩]
  | .clearAnnouncer entry | .storeAnnouncer entry _ | .askPaused entry | .closeEntry entry =>
    [alone (.entry entry)]
  | .spawnAnnouncer _ => []

/-- The sections of `Sources.step` have no other guards, and take no other locks under them. -/
theorem runs_of_section (sources : Sources) (next : Section) :
    ∀ scope ∈ guards sources next, Exists fun scopes => Runs scopes /\ scope ∈ scopes := by
  rintro scope member
  cases next
  case storeClient primary _ =>
    exact ⟨_, .peersLoop (sources.registry.torrents.lookup primary), member⟩
  case announceEntry entry => exact ⟨_, .rediscover entry _ none, mem_cons_of_mem _ member⟩
  case spawnAnnouncer => cases member
  case clearAnnouncer entry | storeAnnouncer entry _ | askPaused entry | closeEntry entry =>
    exact ⟨_, .dhtRound entry, mem_cons_of_mem _ member⟩
  case openClient | askAnnouncer | pushIfRegistered => exact ⟨_, .refused, member⟩
  all_goals exact ⟨_, .dispatch, member⟩

def Lock.rank : Lock -> Nat
  | registry => 0
  | entry _ => 1
  | dispatcher => 2

/-- No lock is taken under one that ranks as high. -/
def Ordered (scope : Scope Lock) : Prop :=
  ∀ lock ∈ scope.inner, scope.lock.rank < lock.rank

@[simp]
theorem ordered_alone (lock : Lock) : Ordered (alone lock) :=
  nofun

@[simp]
theorem ordered_registry (found : Option Nat) : Ordered ⟨.registry, found.toList.map .entry⟩ := by
  simp [Ordered, Lock.rank]

@[simp]
theorem ordered_entry (entry hashes : Nat) : Ordered ⟨.entry entry, List.replicate hashes .dispatcher⟩ := by
  simp [Ordered, Lock.rank]

theorem ordered_scopes {scopes : List (Scope Lock)} (runs : Runs scopes) :
    ∀ scope ∈ scopes, Ordered scope := by
  cases runs <;> simp [spawnDhtAnnouncer, startWsTracker, -mem_append, -mem_flatMap,
    -mem_map, forall_mem_append, forall_mem_flatMap, forall_mem_map]

/-- Any number of threads, each with the guards of its call. -/
def machine : Machine (Threads Lock) (Label { scopes // Runs scopes }) :=
  LockOrder.machine fun call => call.1.flatMap Scope.places

/-- No run leads to threads that wait for each other in a cycle. -/
theorem no_waiting_cycle {labels : List (Label { scopes // Runs scopes })} {threads : Threads Lock}
    (run : machine.RunsTo Machine.always labels threads) (index : Nat) :
    ¬ Relation.TransGen (Waits threads) index index := by
  have climb : forall (call : { scopes // Runs scopes }) place,
      place ∈ call.1.flatMap Scope.places -> place.Climbs Lock.rank :=
    fun call => forall_mem_flatMap.mpr fun scope member =>
      climbs_places (ordered_scopes call.2 scope member)
  exact not_waits_cycle climb run index

/-- The peers loop holds the registry and waits for the entry that `rediscover` holds. -/
theorem no_waiting_cycle_peersLoop : Exists fun threads => machine.RunsTo Machine.always
      [.start ⟨_, .peersLoop (some 0)⟩, .start ⟨_, .rediscover 0 1 none⟩, .run 1, .run 1, .run 1,
        .run 0] threads ∧ forall index, ¬ Relation.TransGen (Waits threads) index index :=
  have run := Machine.RunsTo.of_exec_isSome rfl (Machine.permits_always machine _ []) rfl
  ⟨_, run, no_waiting_cycle run⟩

end TorrentPlayer.Discovery.SourceLocks
