import TorrentPlayer.Discovery.Client
import Mathlib.Data.List.MinMax

namespace TorrentPlayer.Discovery

open Library
open Core.Pex (SocketAddr PexFlags PexMsg)

/-!
# How a torrent finds peers, and private torrents

Peers of a torrent come from the DHT (`spawn_dht_announcer` and
`announce_to_dht` of `wt-core/src/sources/mod.rs`), from `ut_pex` messages
(`wt-core/src/peer_conn.rs` and `torrent_impls.rs`), from local service discovery
(`wt-core/src/client.rs`) and from the hints of earlier sessions
(`wt-engine/src/server.rs`).  A private torrent may use none of these, but
whether it is private is known only with its info, which may come from a peer
while all of them run.

One torrent is modelled.  Every task reads the info in one step and acts on what
it read in a later one.
-/

inductive PeerSource where
  | direct
  | tracker
  | incoming
  | dhtGetPeers
  | dhtAnnouncePeer
  | pex
  | utHolepunch
  | webRtc
  | webSeed
  | lsd
  deriving DecidableEq

/-- The sources that a private torrent may not use. -/
def PeerSource.barred : PeerSource -> Bool
  | .dhtGetPeers | .dhtAnnouncePeer | .pex | .lsd => true
  | .direct | .tracker | .incoming | .utHolepunch | .webRtc | .webSeed => false

structure PeerInfo where
  id : Option PeerId := none
  addr : SocketAddr
  source : PeerSource
  supportsEncryption : Bool := false
  pex : PexFlags := {}
  trusted : Bool := false
  deriving DecidableEq

/-- A peer replaces the one with the same address and the same trust. -/
def insertPeer (known : List PeerInfo) (peer : PeerInfo) : List PeerInfo :=
  match known.find? (fun old => old.addr == peer.addr && old.trusted == peer.trusted) with
  | some old => (known.erase old).insert peer
  | none => known.insert peer

/-- While the pool is too large, it loses an untrusted peer of the lowest
priority, or a trusted one if it has no other. -/
def trim (priority : SocketAddr -> UInt32) (highWater : Nat) : Nat -> List PeerInfo -> List PeerInfo
  | 0, known => known
  | fuel + 1, known =>
    if highWater < known.length then
      match known.argmin (fun peer =>
          (if peer.trusted then 2 ^ 32 else 0) + (priority peer.addr).toNat) with
      | some victim => trim priority highWater fuel (known.erase victim)
      | none => known
    else known

structure PoolSettings where
  disablePex : Bool := false
  /-- At least one, as the caller makes sure. -/
  highWater : Nat := 500
  priority : SocketAddr -> UInt32 := fun _ => 0

def addPeers (settings : PoolSettings) (known peers : List PeerInfo) : List PeerInfo :=
  let grown := peers.foldl insertPeer known
  trim settings.priority settings.highWater grown.length grown

/-- The announcer of one entry of the sources: before it looks at the torrent,
about to start an announce for the first of some hashes, or taking peers from a
running one. -/
inductive DhtAnnouncer where
  | idle (keys : TorrentKeys)
  | announcing (keys : TorrentKeys) (hashes : List InfoHash)
  | traversing (keys : TorrentKeys) (rest : List InfoHash)

def DhtAnnouncer.isIdle : DhtAnnouncer -> Bool
  | .idle _ => true
  | .announcing _ _ | .traversing _ _ => false

/-- A connection that found PEX enabled, and has a message to take in or one
to send. -/
inductive PexTask where
  | ingesting (msg : PexMsg)
  | sharing

/-- The one task of local service discovery. -/
inductive LsdTask where
  | idle
  | sending (hashes : List InfoHash)
  | adding (addr : SocketAddr)

def LsdTask.pending : LsdTask -> List InfoHash
  | .sending hashes => hashes
  | .idle | .adding _ => []

def LsdTask.isAdding : LsdTask -> Bool
  | .adding _ => true
  | .idle | .sending _ => false

/-- `dhtStarted`, `pexSent` and `lsdSent` are what went out.  `discovered` is not
part of the code: it has every peer that one of the four sources brought. -/
structure Discovering where
  infoHash : InfoHash
  info : Option Meta.Info := none
  closed : Bool := false
  known : List PeerInfo := []
  announcers : FiniteMap Nat DhtAnnouncer := ∅
  pex : FiniteMap Nat PexTask := ∅
  lsd : LsdTask := .idle
  hinting : Bool := false
  dhtStarted : List InfoHash := []
  pexSent : List (Nat × PexMsg) := []
  lsdSent : List (List InfoHash) := []
  discovered : List PeerInfo := []

def isPrivate (info : Option Meta.Info) : Bool :=
  info.any (fun info => info.isPrivate == some true)

def isPublic (info : Option Meta.Info) : Bool :=
  info.any (fun info => info.isPrivate != some true)

namespace Discovering

variable (settings : PoolSettings) (state : Discovering)

def pexDisabled : Bool :=
  isPrivate state.info || settings.disablePex

/-- One of the four sources brings peers. -/
def discover (peers : List PeerInfo) : Discovering :=
  { state with
    known := addPeers settings state.known peers
    discovered := state.discovered ++ peers }

/-- The top of the loop: the entry says whether the torrent wants peers. -/
def lookDht (keys : TorrentKeys) (wantConns : Bool) : DhtAnnouncer :=
  if wantConns && !isPrivate state.info then .announcing keys keys.allShort else .idle keys

def dhtPeer (addr : SocketAddr) : PeerInfo :=
  { addr := addr, source := .dhtGetPeers }

def portOf : SocketAddr -> UInt16
  | .v4 addr | .v6 addr => addr.port

/-- A batch of a running announce. -/
def takeBatch (addrs : List SocketAddr) : Discovering :=
  let peers := (addrs.filter (fun addr => portOf addr != 0)).map dhtPeer
  if peers.isEmpty then state else state.discover settings peers

def pexPeers (msg : PexMsg) : List PeerInfo :=
  let peer := fun (addr : SocketAddr) (flags : PexFlags) =>
    { addr := addr, source := .pex, supportsEncryption := flags.prefersEncryption, pex := flags :
      PeerInfo }
  msg.added.mapIdx (fun i addr => peer (.v4 addr) (msg.addedFlags[i]?.getD {})) ++
    msg.added6.mapIdx (fun i addr => peer (.v6 addr) (msg.added6Flags[i]?.getD {}))

def pexIsEmpty (msg : PexMsg) : Bool :=
  msg.added.isEmpty && msg.added6.isEmpty && msg.dropped.isEmpty && msg.dropped6.isEmpty

def hashesPerAnnounce : Nat :=
  20

/-- The hashes of the client's torrents, this one's between those of others. -/
def lsdInfoHashes (before after : List InfoHash) : List InfoHash :=
  before ++ (if !state.closed && isPublic state.info then [state.infoHash] else []) ++ after

def lsdPeer (addr : SocketAddr) : PeerInfo :=
  { addr := addr, source := .lsd }

/-! ## The machine -/

inductive DhtLabel where
  | look (wantConns : Bool)
  | announce (started : Bool)
  | batch (addrs : List SocketAddr)
  | endTraversal

inductive PexLabel where
  /-- A message arrives, and is taken in unless it came too soon. -/
  | arrive (msg : PexMsg)
  | ingest (tooSoon : Bool)
  | look
  | send (msg : PexMsg)

inductive LsdLabel where
  | look (before after : List InfoHash)
  | send
  /-- Another client announced the hash of this torrent. -/
  | arrive (addr : SocketAddr)
  | add

inductive Label where
  | setInfo (info : Meta.Info)
  | close
  /-- A DHT announcer starts, or is aborted at one of its suspension points. -/
  | spawn (id : Nat) (keys : TorrentKeys)
  | stop (id : Nat)
  | dht (id : Nat) (label : DhtLabel)
  | pex (conn : Nat) (label : PexLabel)
  | lsd (label : LsdLabel)
  | hintsLook
  | hintsAdd (peers : List PeerInfo)
  /-- Peers of trackers and the like, and peers that left the pool to be dialled. -/
  | addOther (peers : List PeerInfo)
  | remove (peer : PeerInfo)

def hadBefore (peer : PeerInfo) : Bool :=
  !peer.source.barred || state.discovered.any (fun old =>
    old.addr == peer.addr && old.source == peer.source)

def setAnnouncer (id : Nat) (announcer : DhtAnnouncer) : Discovering :=
  { state with announcers := state.announcers.insert id announcer }

def stepDht (id : Nat) : DhtAnnouncer -> DhtLabel -> Option Discovering
  | .idle keys, .look wantConns => some (state.setAnnouncer id (state.lookDht keys wantConns))
  | .announcing keys [], .announce _ => some (state.setAnnouncer id (.idle keys))
  | .announcing keys (hash :: rest), .announce true =>
    some ({ state with dhtStarted := state.dhtStarted ++ [hash] }.setAnnouncer id
      (.traversing keys rest))
  | .announcing keys (_ :: rest), .announce false =>
    some (state.setAnnouncer id (.announcing keys rest))
  | .traversing _ _, .batch addrs => some (state.takeBatch settings addrs)
  | .traversing keys rest, .endTraversal =>
    some (state.setAnnouncer id (.announcing keys rest))
  | _, _ => none

def stepPex (conn : Nat) : Option PexTask -> PexLabel -> Option Discovering
  | none, .arrive msg =>
    some (if state.pexDisabled settings then state
      else { state with pex := state.pex.insert conn (.ingesting msg) })
  | some (.ingesting msg), .ingest tooSoon =>
    let done := { state with pex := state.pex.erase conn }
    some (if tooSoon then done else done.discover settings (pexPeers msg))
  | none, .look =>
    some (if state.pexDisabled settings then state
      else { state with pex := state.pex.insert conn .sharing })
  | some .sharing, .send msg =>
    let done := { state with pex := state.pex.erase conn }
    some (if pexIsEmpty msg then done
      else { done with pexSent := done.pexSent ++ [(conn, msg)] })
  | _, _ => none

def stepLsd : LsdTask -> LsdLabel -> Option Discovering
  | .idle, .look before after =>
    if state.infoHash ∉ before ++ after then
      some { state with lsd := .sending (state.lsdInfoHashes before after) }
    else none
  | .sending [], .send => some { state with lsd := .idle }
  | .sending (hash :: rest), .send =>
    some { state with
      lsd := .sending ((hash :: rest).drop hashesPerAnnounce)
      lsdSent := state.lsdSent ++ [(hash :: rest).take hashesPerAnnounce] }
  | .idle, .arrive addr =>
    some (if state.closed || !isPublic state.info then state
      else { state with lsd := .adding addr })
  | .adding addr, .add => some ({ state with lsd := .idle }.discover settings [lsdPeer addr])
  | _, _ => none

def step : Label -> Option Discovering
  | .setInfo info => some { state with info := some info }
  | .close => some { state with closed := true }
  | .spawn id keys =>
    if (state.announcers.lookup id).isSome then none
    else some (state.setAnnouncer id (.idle keys))
  | .stop id => some { state with announcers := state.announcers.erase id }
  | .dht id label =>
    (state.announcers.lookup id).bind (fun announcer =>
      state.stepDht settings id announcer label)
  | .pex conn label => state.stepPex settings conn (state.pex.lookup conn) label
  | .lsd label => state.stepLsd settings state.lsd label
  | .hintsLook => some (if isPublic state.info then { state with hinting := true } else state)
  | .hintsAdd peers =>
    if state.hinting then some ({ state with hinting := false }.discover settings peers)
    else none
  | .addOther peers =>
    if peers.all state.hadBefore then
      some { state with known := addPeers settings state.known peers }
    else none
  | .remove peer => some { state with known := state.known.erase peer }

/-- A torrent starts without peers, with or without its info. -/
def machine : Machine Discovering Label where
  init := fun state => Exists fun infoHash => Exists fun info =>
    state = { infoHash := infoHash, info := info }
  step := step settings

end Discovering
end TorrentPlayer.Discovery
