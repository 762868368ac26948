import TorrentPlayer.Discovery.Announcer

namespace TorrentPlayer.Discovery

open Library

/-!
# The sources of a client

`wt-core/src/sources/mod.rs`.  A torrent is registered under its short hashes.
From then on its trackers have slots in the announce dispatcher, its WebSocket
trackers have clients of their own, and one task looks for its peers in the
DHT.  The registry, an entry and the dispatcher have separate locks, and every
call takes them one after the other.

A call in progress is therefore a list of sections it has still to run.  The
first section of a call is the step that starts it.  The settings and the
torrent's own data do not change while these calls run.
-/

structure TorrentKeys where
  v1 : Option InfoHash := none
  v2Short : Option InfoHash := none

def TorrentKeys.allShort (keys : TorrentKeys) : List InfoHash :=
  match keys.v1, keys.v2Short with
  | none, none => []
  | some v1, none => [v1]
  | none, some v2 => [v2]
  | some v1, some v2 => if v2 = v1 then [v1] else [v1, v2]

inductive CoreError where
  | closed
  | other (message : String)

def schemeIn (schemes : List String) (url : String) : Bool :=
  schemes.any (fun scheme => scheme.toList.isPrefixOf (url.toList.map Char.toLower))

/-- The trackers for the dispatcher, and those with a client of their own. -/
def splitTrackerUrls (tiers : List (List String)) : List String × List String :=
  let ws := schemeIn ["ws://", "wss://"]
  let httpUdp := schemeIn ["http://", "https://", "udp://", "udp4://", "udp6://"]
  (tiers.flatten.filter (fun url => !ws url && httpUdp url), tiers.flatten.filter ws)

structure SourcesConfig where
  disableWebtorrent : Bool := false
  periodicallyAnnounceTorrentsToDht : Bool := true
  dht : Bool := true

/-- The registry of torrents.  An entry is a number here; what it holds is kept
beside the registry, as it has a lock of its own. -/
structure Registry where
  cfg : SourcesConfig := {}
  registered : Finset InfoHash := ∅
  torrents : FiniteMap InfoHash Nat := ∅
  byIdentity : FiniteMap Nat Nat := ∅
  nextIdentity : Nat := 1
  closed : Bool := false

namespace Registry

def find (registry : Registry) (keys : TorrentKeys) : Option Nat :=
  keys.allShort.findSome? (fun hash => registry.torrents.lookup hash)

/-- The first section of `register_torrent`. -/
def registerTorrent (registry : Registry) (keys : TorrentKeys) (entry : Nat) : Except CoreError Registry :=
  if registry.closed then .error .closed
  else if keys.allShort.isEmpty then .error (.other "register_torrent: no infohashes")
  else
    match keys.allShort.find? (fun hash => decide (hash ∈ registry.registered)) with
    | some hash => .error (.other ("infohash " ++ toHex hash ++ " already registered"))
    | none =>
      .ok { registry with
        registered := keys.allShort.foldl (fun set hash => insert hash set) registry.registered
        torrents := keys.allShort.foldl (fun map hash => map.insert hash entry)
          registry.torrents
        byIdentity := registry.byIdentity.insert registry.nextIdentity entry
        nextIdentity := registry.nextIdentity + 1 }

/-- The first section of `unregister_torrent`. -/
def unregisterTorrent (registry : Registry) (keys : TorrentKeys) : Registry :=
  let found := registry.find keys
  { registry with
    registered := keys.allShort.foldl (fun set hash => set.erase hash) registry.registered
    torrents := keys.allShort.foldl (fun map hash => map.erase hash) registry.torrents
    byIdentity :=
      match found with
      | none => registry.byIdentity
      | some entry => registry.byIdentity.retain (fun _ other =>
        if other = entry then none else some other) }

end Registry

structure TorrentEntry where
  keys : TorrentKeys
  paused : Bool := false
  /-- The clients kept with the entry, as places in the list of all clients. -/
  wsClients : List Nat := []
  /-- The task kept with the entry, as a place in the list of all tasks. -/
  dhtAnnouncer : Option Nat := none

structure TrackerClient where
  url : String
  isOpen : Bool := true

/-- What a call in progress has still to do. -/
inductive Section where
  | pushSnapshot (infoHash : InfoHash)
  | addTrackers (infoHash : InfoHash) (urls : List String)
  | announceNow (infoHash : InfoHash)
  /-- `start_ws_tracker`: a client is made and started. -/
  | openClient (primary : InfoHash) (url : String)
  /-- The client is kept with the entry, if the entry is still registered. -/
  | storeClient (primary : InfoHash) (client : Nat)
  /-- `spawn_dht_announcer`: is there anything to start? -/
  | askAnnouncer (entry : Nat)
  /-- The task kept so far is stopped. -/
  | clearAnnouncer (entry : Nat)
  | spawnAnnouncer (entry : Nat)
  | storeAnnouncer (entry : Nat) (task : Nat)
  /-- `refresh_torrent`: the entry says under which hashes to push. -/
  | askPaused (entry : Nat)
  | pushIfRegistered (infoHash : InfoHash)
  /-- `rediscover`: the same, and every tracker is due now.  The code holds the
  entry's lock meanwhile, which other calls may take here. -/
  | announceEntry (entry : Nat)
  | removeSlots (infoHash : InfoHash)
  | closeEntry (entry : Nat)
  deriving DecidableEq

inductive CallKind where
  | register
  | addTrackers
  | rediscover
  | refresh
  | unregister
  deriving DecidableEq

structure Call where
  kind : CallKind
  todo : List Section

/-- All calls, and everything they change.  `down` is not part of the code: an
unregistering call has returned, and no call has started since. -/
structure Sources where
  registry : Registry := {}
  entries : List TorrentEntry := []
  dispatcher : DispatcherInner := {}
  clients : List TrackerClient := []
  /-- The DHT tasks, by whether they still run. -/
  announcers : List Bool := []
  calls : List Call := []
  down : Bool := false

namespace Sources

variable (sources : Sources) (keys : TorrentKeys)

def modifyEntry (entry : Nat) (change : TorrentEntry -> TorrentEntry) : Sources :=
  { sources with entries := sources.entries.modify entry change }

/-- A call starts: its first section has run. -/
def begin (kind : CallKind) (todo : List Section) : Sources :=
  { sources with calls := sources.calls ++ [{ kind := kind, todo := todo }], down := false }

def startRegister (tiers : List (List String)) : Sources :=
  let entry := sources.entries.length
  match sources.registry.registerTorrent keys entry with
  | .error _ => sources.begin .register []
  | .ok registry =>
    let urls := splitTrackerUrls tiers
    let slots := keys.allShort.flatMap (fun hash =>
      [Section.pushSnapshot hash, .addTrackers hash urls.1])
    let clients :=
      if registry.cfg.disableWebtorrent then []
      else urls.2.map (Section.openClient (keys.allShort.headD default))
    let reserved : Sources :=
      { sources with
        registry := registry
        entries := sources.entries ++ [{ keys := keys }] }
    reserved.begin .register (slots ++ clients ++ [Section.askAnnouncer entry])

def startAddTrackers (tiers : List (List String)) : Sources :=
  let urls := splitTrackerUrls tiers
  let shorts := keys.allShort.filter (fun hash => decide (hash ∈ sources.registry.registered))
  if sources.registry.closed || shorts.isEmpty then sources.begin .addTrackers []
  else
    let slots := shorts.map (fun hash => Section.addTrackers hash urls.1)
    let clients :=
      if sources.registry.cfg.disableWebtorrent then []
      else if (sources.registry.torrents.lookup (shorts.headD default)).isNone then []
      else urls.2.map (Section.openClient (keys.allShort.headD default))
    sources.begin .addTrackers (slots ++ clients)

def startRediscover : Sources :=
  if sources.registry.closed then sources.begin .rediscover []
  else
    match sources.registry.find keys with
    | none => sources.begin .rediscover []
    | some entry => sources.begin .rediscover [.announceEntry entry]

def startRefresh : Sources :=
  if sources.registry.closed then sources.begin .refresh []
  else
    match sources.registry.find keys with
    | none => sources.begin .refresh []
    | some entry => sources.begin .refresh [.askPaused entry]

def startUnregister : Sources :=
  let slots := keys.allShort.map Section.removeSlots
  let entry := (sources.registry.find keys).toList.map Section.closeEntry
  let removed : Sources := { sources with registry := sources.registry.unregisterTorrent keys }
  removed.begin .unregister (slots ++ entry)

/-! ### Later sections -/

/-- Run one section.  The list is what the section puts before the rest.  The
data is what the torrent would report at this moment. -/
def runSection (data : TorrentAnnounceSnapshot) (now : Nat) : Section -> Sources × List Section
  | .pushSnapshot hash =>
    ({ sources with
       dispatcher := sources.dispatcher.updateTorrent { data with infoHash := hash } now }, [])
  | .addTrackers hash urls =>
    ({ sources with dispatcher := sources.dispatcher.addTrackers hash urls now }, [])
  | .announceNow hash =>
    ({ sources with dispatcher := sources.dispatcher.announceNow hash now }, [])
  | .openClient primary url =>
    ({ sources with clients := sources.clients ++ [{ url := url }] },
      [.storeClient primary sources.clients.length])
  | .storeClient primary client =>
    match sources.registry.torrents.lookup primary with
    | none => (sources, [])
    | some entry =>
      (sources.modifyEntry entry (fun e =>
        { e with wsClients := e.wsClients ++ [client] }), [])
  | .askAnnouncer entry =>
    if sources.registry.cfg.periodicallyAnnounceTorrentsToDht && !sources.registry.closed &&
        sources.registry.cfg.dht then
      (sources, [.clearAnnouncer entry])
    else (sources, [])
  | .clearAnnouncer entry =>
    match sources.entries[entry]? with
    | none => (sources, [])
    | some e =>
      if e.paused then (sources, [])
      else
        ({ sources.modifyEntry entry (fun e => { e with dhtAnnouncer := none }) with
           announcers := match e.dhtAnnouncer with
             | none => sources.announcers
             | some task => sources.announcers.set task false },
         [.spawnAnnouncer entry])
  | .spawnAnnouncer entry =>
    ({ sources with announcers := sources.announcers ++ [true] },
      [.storeAnnouncer entry sources.announcers.length])
  | .storeAnnouncer entry task =>
    (sources.modifyEntry entry (fun e => { e with dhtAnnouncer := some task }), [])
  | .askPaused entry =>
    match sources.entries[entry]? with
    | none => (sources, [])
    | some e =>
      if e.paused then (sources, [])
      else (sources, e.keys.allShort.map Section.pushIfRegistered)
  | .pushIfRegistered hash =>
    if hash ∈ sources.registry.registered then (sources, [.pushSnapshot hash])
    else (sources, [])
  | .announceEntry entry =>
    match sources.entries[entry]? with
    | none => (sources, [])
    | some e =>
      if e.paused then (sources, [])
      else
        (sources, e.keys.allShort.flatMap (fun hash =>
          [Section.pushSnapshot hash, .announceNow hash]) ++ [.askAnnouncer entry])
  | .removeSlots hash =>
    ({ sources with dispatcher := (sources.dispatcher.removeTorrent hash).1 }, [])
  | .closeEntry entry =>
    match sources.entries[entry]? with
    | none => (sources, [])
    | some e =>
      ({ sources.modifyEntry entry (fun e =>
           { e with wsClients := [], dhtAnnouncer := none }) with
         clients := e.wsClients.foldl (fun clients client =>
           clients.modify client (fun c => { c with isOpen := false })) sources.clients
         announcers := match e.dhtAnnouncer with
           | none => sources.announcers
           | some task => sources.announcers.set task false }, [])

inductive Label where
  | register (keys : TorrentKeys) (tiers : List (List String))
  | addTrackers (keys : TorrentKeys) (tiers : List (List String))
  | rediscover (keys : TorrentKeys)
  | refresh (keys : TorrentKeys)
  | unregister (keys : TorrentKeys)
  /-- The call at this place runs its next section, or returns. -/
  | run (place : Nat) (data : TorrentAnnounceSnapshot) (now : Nat)

def runCall (place : Nat) (data : TorrentAnnounceSnapshot) (now : Nat) : Option Sources :=
  match sources.calls[place]? with
  | none => none
  | some call =>
    match call.todo with
    | [] =>
      some { sources with
        calls := sources.calls.eraseIdx place
        down := sources.down || call.kind == .unregister }
    | next :: rest =>
      let ran := sources.runSection data now next
      some { ran.1 with
        calls := sources.calls.set place { call with todo := ran.2 ++ rest } }

def step (infoHash : InfoHash) (sources : Sources) : Label -> Option Sources
  | .register keys tiers =>
    if keys.allShort = [infoHash] then some (sources.startRegister keys tiers) else none
  | .addTrackers keys tiers =>
    if keys.allShort = [infoHash] then some (sources.startAddTrackers keys tiers) else none
  | .rediscover keys =>
    if keys.allShort = [infoHash] then some (sources.startRediscover keys) else none
  | .refresh keys =>
    if keys.allShort = [infoHash] then some (sources.startRefresh keys) else none
  | .unregister keys =>
    if keys.allShort = [infoHash] then some (sources.startUnregister keys) else none
  | .run place data now => sources.runCall place data now

/-- Sources start with nothing registered, under any settings. -/
def machine (infoHash : InfoHash) : Machine Sources Label where
  init := fun sources => Exists fun cfg => sources = { registry := { cfg := cfg } }
  step := step infoHash

end Sources
end TorrentPlayer.Discovery
