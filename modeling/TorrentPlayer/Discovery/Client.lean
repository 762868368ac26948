import TorrentPlayer.Discovery.Sources
import TorrentPlayer.Meta.Metainfo

namespace TorrentPlayer.Discovery

open Library

/-!
# The torrents of a client

`add_torrent_spec`, `detach_torrent` and `close` of `wt-core/src/client.rs`.  A
client finds its torrents through two maps.  One has every torrent under its
own hash; the other has it under all its short hashes, and gains aliases when a
specification with another hash is merged into a torrent.  Whatever hash leads
to a torrent should also be known to the sources, or no peer is looked for
under it.

The three calls hold one lock, so a run is a sequence of calls.  The SHA-1
function is a parameter.  Opening the storage may fail, which the environment
decides.
-/

structure TorrentSpec where
  infoHash : Option InfoHash := none
  infoHashV2 : Option InfoHashV2 := none
  infoBytes : Option (List UInt8) := none
  trackers : List (List String) := []
  displayName : String := ""
  webSeeds : List String := []

def TorrentKeys.fromSpec (spec : TorrentSpec) : TorrentKeys :=
  { v1 := spec.infoHash, v2Short := spec.infoHashV2.map InfoHashV2.toShort }

structure ClientTorrent where
  infoHash : InfoHash
  infoHashV2 : Option InfoHashV2
  displayName : String
  info : Option Meta.Info := none
  metainfoRaw : Option (List UInt8) := none
  trackers : List (List String) := []
  webSeeds : List String := []

def torrentKeysFor (torrent : ClientTorrent) : TorrentKeys :=
  { v1 := some torrent.infoHash, v2Short := torrent.infoHashV2.map InfoHashV2.toShort }

/-- A torrent is known by its place in the list of all torrents.  `detached` is
not part of the code: it records which torrents were dropped. -/
structure Client where
  all : List ClientTorrent := []
  torrents : FiniteMap InfoHash Nat := ∅
  torrentsByShort : FiniteMap InfoHash Nat := ∅
  sources : Option Registry := none
  closed : Bool := false
  detached : Finset Nat := ∅

namespace Client

/-! ## Adding and merging -/

variable (sha1 : List UInt8 -> InfoHash) (client : Client) (place : Nat) (torrent : ClientTorrent)
  (spec : TorrentSpec)

/-- The hash of the info stands in for a missing one, if the info is valid. -/
def withInfo : TorrentSpec × Option Meta.Info :=
  match spec.infoBytes with
  | none => (spec, none)
  | some bytes =>
    match Meta.parseInfo bytes with
    | .error _ => (spec, none)
    | .ok info =>
      ({ spec with infoHash := some (spec.infoHash.getD (sha1 bytes)) }, some info)

/-- The hash that a new torrent gets. -/
def mainHash : Option InfoHash :=
  match spec.infoHash with
  | some v1 => some v1
  | none => spec.infoHashV2.map InfoHashV2.toShort

def existing (infoHash : InfoHash) (spec : TorrentSpec) : Option Nat :=
  match client.torrents.lookup infoHash with
  | some place => some place
  | none =>
    match client.torrentsByShort.lookup infoHash with
    | some place => some place
    | none => spec.infoHashV2.bind (fun v2 => client.torrentsByShort.lookup v2.toShort)

def conflicts : Bool :=
  (spec.infoHashV2.bind (fun v2 => client.torrentsByShort.lookup v2.toShort)).any (· != place) ||
    (spec.infoHash.bind (fun v1 => client.torrentsByShort.lookup v1)).any (· != place)

/-- `merge_spec`, as far as it changes the torrent. -/
def mergeSpec (info : Option Meta.Info) (storageError : Option String) : Except CoreError ClientTorrent :=
  let opened : Except CoreError ClientTorrent :=
    match info with
    | none => .ok torrent
    | some info =>
      if torrent.info.isSome then .ok torrent
      else
        match storageError with
        | some message => .error (.other message)
        | none => .ok { torrent with info := some info }
  match opened with
  | .error error => .error error
  | .ok torrent =>
    .ok { torrent with
      metainfoRaw := match spec.infoBytes with
        | some bytes => some bytes
        | none => torrent.metainfoRaw
      webSeeds := spec.webSeeds.foldl (fun seeds url =>
        if url ∈ seeds then seeds else seeds ++ [url]) torrent.webSeeds
      trackers := spec.trackers.foldl (fun tiers tier =>
        if tier ∈ tiers then tiers else tiers ++ [tier]) torrent.trackers }

/-- The keys that a merge registers. -/
def newKeys : TorrentKeys :=
  { v1 := if spec.infoHash.any (· != torrent.infoHash) then spec.infoHash else none
    v2Short := spec.infoHashV2.bind (fun v2 =>
      if torrent.infoHashV2.isNone && v2.toShort != torrent.infoHash then some v2.toShort
      else none) }

/-- A refused registration is only logged. -/
def registerSources (keys : TorrentKeys) : Client :=
  match client.sources with
  | none => client
  | some registry =>
    match registry.registerTorrent keys registry.nextIdentity with
    | .error _ => client
    | .ok registry => { client with sources := some registry }

/-- The hashes of the specification become aliases of the torrent. -/
def addAliases : Client :=
  { client with
    torrentsByShort := (TorrentKeys.fromSpec spec).allShort.foldl
      (fun map hash => map.insert hash place) client.torrentsByShort }

def merge (merged : ClientTorrent) (spec : TorrentSpec) : Client :=
  let aliased := { client with all := client.all.set place merged }.addAliases place spec
  let keys := newKeys torrent spec
  if keys.v1.isSome || keys.v2Short.isSome then aliased.registerSources keys else aliased

def insertNew : Client :=
  let place := client.all.length
  let short := client.torrentsByShort.insert torrent.infoHash place
  { client with
    all := client.all ++ [torrent]
    torrents := client.torrents.insert torrent.infoHash place
    torrentsByShort := match torrent.infoHashV2 with
      | none => short
      | some v2 => short.insert v2.toShort place }.registerSources (torrentKeysFor torrent)

def newTorrent (infoHash : InfoHash) (spec : TorrentSpec) (info : Option Meta.Info) : ClientTorrent :=
  { infoHash := infoHash
    infoHashV2 := spec.infoHashV2
    displayName := spec.displayName
    info := info
    metainfoRaw := spec.infoBytes
    trackers := spec.trackers
    webSeeds := spec.webSeeds }

/-- The answer names the torrent and says whether it is new. -/
def addTorrentSpec (storageError : Option String) : Except CoreError (Nat × Bool) × Client :=
  if client.closed then (.error .closed, client)
  else
    let read := withInfo sha1 spec
    match mainHash read.1 with
    | none => (.error (.other "missing infohash"), client)
    | some infoHash =>
      match client.existing infoHash read.1 with
      | some place =>
        if client.conflicts place read.1 then
          (.error (.other "torrent hashes already belong to different torrents"), client)
        else
          match client.all[place]? with
          | none => (.error .closed, client)
          | some torrent =>
            match mergeSpec torrent read.1 read.2 storageError with
            | .error error => (.error error, client)
            | .ok merged => (.ok (place, false), client.merge place torrent merged read.1)
      | none =>
        match read.2, storageError with
        | some _, some message => (.error (.other message), client)
        | _, _ =>
          (.ok (client.all.length, true), client.insertNew (newTorrent infoHash read.1 read.2))

def detachTorrent : Client :=
  let hashes := (client.torrentsByShort.entries.filter (fun entry => entry.2 == place)).map
    (fun entry => entry.1)
  let keep := fun (_ : InfoHash) (other : Nat) => if other = place then none else some other
  { client with
    torrents := client.torrents.retain keep
    torrentsByShort := client.torrentsByShort.retain keep
    sources := client.sources.map (fun registry =>
      hashes.foldl (fun registry hash => registry.unregisterTorrent { v1 := some hash }) registry)
    detached := insert place client.detached }

def close : Client :=
  if client.closed then client
  else { client with closed := true, sources := none, torrents := ∅, torrentsByShort := ∅ }

def registered : Finset InfoHash :=
  client.sources.elim ∅ Registry.registered

inductive Label where
  | add (spec : TorrentSpec) (storageError : Option String)
  | detach (place : Nat)
  | close

def step : Label -> Option Client
  | .add spec storageError => some (client.addTorrentSpec sha1 spec storageError).2
  | .detach place => if place < client.all.length then some (client.detachTorrent place) else none
  | .close => some client.close

/-- A client starts without torrents and with its sources running. -/
def machine : Machine Client Label where
  init := fun client => Exists fun cfg => client = { sources := some { cfg := cfg } }
  step := step sha1

end Client
end TorrentPlayer.Discovery
