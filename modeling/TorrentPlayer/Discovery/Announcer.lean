import TorrentPlayer.Hashes
import TorrentPlayer.Library.FiniteMaps
import TorrentPlayer.Library.Machine
import TorrentPlayer.Core.Pex
import Mathlib.Data.Finset.Basic
import Mathlib.Data.List.Sort

namespace TorrentPlayer.Discovery

open Library
open Core.Pex (SocketAddr)

/-!
# The announce dispatcher

`wt-discovery/src/tracker/announcer.rs`.  The dispatcher keeps one slot for
every tracker of every torrent.  A loop picks the slots that are due and starts
an announce for each, at most two at a time for one tracker.  An announce runs
without the lock and reports back later; in between the torrent may have been
removed, and added again under the same key.  Every slot therefore carries an
epoch, and a report for another epoch is dropped.

Every section that holds the lock is one function here.  The clock is an
argument, in milliseconds.  A section that reads the clock several times reads
one value in this model.  The counter of epochs is unbounded.
-/

inductive AnnounceEvent where
  | none
  | completed
  | started
  | stopped
  deriving DecidableEq

structure AnnounceRequest where
  infoHash : InfoHash
  peerId : PeerId
  downloaded : Int
  left : Int
  uploaded : Int
  event : AnnounceEvent
  ipAddress : Nat
  key : Int
  numWant : Int
  port : Nat

structure Peer where
  addr : SocketAddr
  id : Option PeerId

/-- The part of an answer that the dispatcher reads. -/
structure AnnounceResponse where
  interval : Int
  peers : List Peer

inductive TrackerStatusEvent where
  | connected (url : String) (infoHash : InfoHash)
  | announceSuccessful (url : String) (infoHash : InfoHash)
  | announceError (url : String) (infoHash : InfoHash) (error : String)
  | disconnected (url : String) (infoHash : InfoHash) (error : Option String)

def maxConcurrentAnnouncesPerTracker : Nat :=
  2

def defaultAnnounceInterval : Nat :=
  30 * 60 * 1000

def announceErrorBackoff : Nat :=
  15 * 1000

structure TorrentAnnounceKey where
  url : String
  infoHash : InfoHash
  deriving DecidableEq

/-- What the core supplies so that requests can be built without its locks. -/
structure TorrentAnnounceSnapshot where
  infoHash : InfoHash
  peerId : PeerId
  downloaded : Int
  left : Int
  uploaded : Int
  port : Nat
  key : Int
  needData : Bool
  wantPeers : Bool
  completed : Bool
  newlyCompleted : Bool

structure SlotState where
  active : Bool := false
  nextAt : Nat
  event : AnnounceEvent := .started
  lastFailed : Bool := false
  sentCompleted : Bool := false
  interval : Nat := defaultAnnounceInterval
  epoch : Nat := 0

structure DispatcherInner where
  slots : FiniteMap TorrentAnnounceKey SlotState := ∅
  urlInflight : FiniteMap String Nat := ∅
  clients : Finset String := ∅
  snapshots : FiniteMap InfoHash TorrentAnnounceSnapshot := ∅
  nextEpoch : Nat := 0

/-- An announce that was picked and has not reported back.  Its first three
fields are arguments of `run_announce`. -/
structure Announce where
  key : TorrentAnnounceKey
  event : AnnounceEvent
  request : AnnounceRequest
  epoch : Nat

def announceRequest (snap : TorrentAnnounceSnapshot) (event : AnnounceEvent) : AnnounceRequest :=
  { infoHash := snap.infoHash
    peerId := snap.peerId
    downloaded := snap.downloaded
    left := snap.left
    uploaded := snap.uploaded
    event := event
    ipAddress := 0
    key := snap.key
    numWant := if snap.wantPeers && event != .stopped then 200 else 0
    port := snap.port }

/-- Lower sorts first. -/
def eventOrder : AnnounceEvent -> Int
  | .started => -4
  | .completed => -3
  | .stopped => -2
  | .none => 0

namespace DispatcherInner

variable (inner : DispatcherInner) (infoHash : InfoHash) (now : Nat)

def mapSlots (change : TorrentAnnounceKey -> SlotState -> SlotState) : DispatcherInner :=
  { inner with slots := inner.slots.retain (fun key slot => some (change key slot)) }

def inflight (url : String) : Nat :=
  (inner.urlInflight.lookup url).getD 0

def updateTorrent (snap : TorrentAnnounceSnapshot) (now : Nat) : DispatcherInner :=
  let known := { inner with snapshots := inner.snapshots.insert snap.infoHash snap }
  let told :=
    if snap.newlyCompleted then
      known.mapSlots (fun key slot =>
        if key.infoHash = snap.infoHash /\ slot.sentCompleted = false then
          { slot with event := .completed, nextAt := now }
        else slot)
    else known
  -- Below the low-water mark an idle slot waits no longer than after an error.
  if snap.wantPeers then
    told.mapSlots (fun key slot =>
      if key.infoHash = snap.infoHash /\ slot.active = false /\ now + announceErrorBackoff < slot.nextAt then
        { slot with nextAt := now + announceErrorBackoff }
      else slot)
  else told

/-- One tracker of a torrent.  The counter moves even if the slot is there. -/
def addTracker (inner : DispatcherInner) (url : String) : DispatcherInner :=
  let key : TorrentAnnounceKey := { url := url, infoHash := infoHash }
  let epoch := inner.nextEpoch + 1
  match inner.slots.lookup key with
  | some _ => { inner with nextEpoch := epoch }
  | none =>
    { inner with
      nextEpoch := epoch
      slots := inner.slots.insert key { nextAt := now, epoch := epoch } }

def addTrackers (urls : List String) (now : Nat) : DispatcherInner :=
  urls.foldl (addTracker infoHash now) inner

def resetClients : DispatcherInner :=
  { inner with clients := ∅ }

def announceNow : DispatcherInner :=
  inner.mapSlots (fun key slot =>
    if key.infoHash = infoHash /\ slot.event ≠ .stopped then
      { slot with nextAt := now, lastFailed := false }
    else slot)

/-- The request that tells one tracker that the torrent stopped.  A slot that
is still at its first announce never reached the tracker. -/
def stopFor (snap : Option TorrentAnnounceSnapshot)
    (key : TorrentAnnounceKey) (slot : SlotState) : Option (String × AnnounceRequest) :=
  if slot.event = .started then none
  else
    match snap with
    | none => none
    | some snap =>
      if key.url ∈ inner.clients then some (key.url, announceRequest snap .stopped) else none

/-- Drop the torrent's slots.  The second part is what is sent to trackers. -/
def removeTorrent : DispatcherInner × List (String × AnnounceRequest) :=
  let snap := inner.snapshots.lookup infoHash
  ({ inner with
     snapshots := inner.snapshots.erase infoHash
     slots := inner.slots.retain (fun key slot =>
       if key.infoHash = infoHash then none else some slot) },
   (inner.slots.entries.filter (fun entry => entry.1.infoHash = infoHash)).filterMap
     (fun entry => inner.stopFor snap entry.1 entry.2))

/-- The slots that are due, by the kind of their next announce.  `order` is the
order in which the hash map is visited. -/
def candidates (order : List TorrentAnnounceKey) (now : Nat) : List TorrentAnnounceKey :=
  let due := order.filter (fun key =>
    (inner.slots.lookup key).any (fun slot => !slot.active && decide (slot.nextAt <= now)))
  let event := fun key => ((inner.slots.lookup key).map SlotState.event).getD .none
  due.insertionSort (fun a b => eventOrder (event a) <= eventOrder (event b))

/-- What the loop does for one candidate. -/
def dispatchKey (state : DispatcherInner × List Announce) (key : TorrentAnnounceKey) :
    DispatcherInner × List Announce :=
  let inner := state.1
  if maxConcurrentAnnouncesPerTracker <= inner.inflight key.url then state
  else
    match inner.slots.lookup key with
    | none => state
    | some slot =>
      if slot.active then state
      else
        match inner.snapshots.lookup key.infoHash with
        | none => state
        | some snap =>
          ({ inner with
             slots := inner.slots.insert key { slot with active := true }
             urlInflight := inner.urlInflight.insert key.url (inner.inflight key.url + 1) },
           state.2 ++
             [{ key := key, event := slot.event
                request := announceRequest snap slot.event, epoch := slot.epoch }])

def dispatchOnce (order : List TorrentAnnounceKey) (now : Nat) : DispatcherInner × List Announce :=
  (inner.candidates order now).foldl dispatchKey (inner, [])

def succeeded (slot : SlotState) (event : AnnounceEvent) (response : AnnounceResponse)
    (wantPeersNow : Bool) (now : Nat) : SlotState :=
  let interval :=
    if 0 < response.interval then response.interval.toNat * 1000 else defaultAnnounceInterval
  let floor := now + announceErrorBackoff
  { slot with
    active := false
    lastFailed := false
    interval := interval
    nextAt := if wantPeersNow && decide (floor < now + interval) then floor else now + interval
    sentCompleted := if event = .completed then true else slot.sentCompleted
    event := if event = .started ∨ event = .completed then .none else slot.event }

/-- A slot after a failed announce.  A pending first announce is kept. -/
def failed (slot : SlotState) (event : AnnounceEvent) (now : Nat) : SlotState :=
  { slot with
    active := false
    lastFailed := true
    nextAt := now + announceErrorBackoff
    event := if event ≠ .started /\ event ≠ .completed then .none else slot.event }

/-- What a report leads to outside the dispatcher. -/
structure Outcome where
  statuses : List TrackerStatusEvent := []
  peers : Option (InfoHash × List Peer) := none

def release (url : String) : DispatcherInner :=
  match inner.urlInflight.lookup url with
  | none => inner
  | some count => { inner with urlInflight := inner.urlInflight.insert url (count - 1) }

def finishAnnounce (key : TorrentAnnounceKey) (event : AnnounceEvent)
    (epoch : Nat) (result : Except String AnnounceResponse) (now : Nat) :
    DispatcherInner × Outcome :=
  let released := inner.release key.url
  match released.slots.lookup key with
  | none => (released, {})
  | some slot =>
    -- The torrent was removed while this ran; the result is not the new slot's.
    if slot.epoch ≠ epoch then (released, {})
    else
      match result with
      | .ok response =>
        let wantPeersNow :=
          ((released.snapshots.lookup key.infoHash).map (·.wantPeers)).getD false
        ({ released with
           slots := released.slots.insert key
             (succeeded slot event response wantPeersNow now) },
         { statuses :=
             (if event = .started then
               [TrackerStatusEvent.connected key.url key.infoHash] else []) ++
             [.announceSuccessful key.url key.infoHash]
           peers := some (key.infoHash, response.peers) })
      | .error message =>
        ({ released with slots := released.slots.insert key (failed slot event now) },
         { statuses :=
             [.announceError key.url key.infoHash message,
              .disconnected key.url key.infoHash (some message)] })

end DispatcherInner

/-! ## The dispatcher and its announces -/

/-- Where `run_announce` stands. -/
inductive Stage where
  | spawned
  | connecting
  | announcing
  deriving DecidableEq

/-- An announce in progress.  `orphaned` is not part of the code: it records
that the torrent was removed since the announce was picked. -/
structure Running where
  announce : Announce
  stage : Stage := .spawned
  orphaned : Bool := false

/-- The dispatcher, its announces in progress, and what it sent out.  The
requests of `remove_torrent` run on their own and report to nobody. -/
structure Dispatcher where
  inner : DispatcherInner := {}
  running : List Running := []
  stops : List (String × AnnounceRequest) := []
  outcomes : List DispatcherInner.Outcome := []

namespace Dispatcher

inductive Label where
  | addTrackers (infoHash : InfoHash) (urls : List String) (now : Nat)
  | updateTorrent (snap : TorrentAnnounceSnapshot) (now : Nat)
  | announceNow (infoHash : InfoHash) (now : Nat)
  | removeTorrent (infoHash : InfoHash)
  | resetClients
  /-- One pass of the loop; the hash map is visited in this order. -/
  | dispatch (order : List TorrentAnnounceKey) (now : Nat)
  | lookupClient (place : Nat)
  /-- A new client was built, or could not be built. -/
  | connect (place : Nat) (error : Option String) (now : Nat)
  /-- The tracker answered, or did not. -/
  | finish (place : Nat) (result : Except String AnnounceResponse) (now : Nat)

def orphan (infoHash : InfoHash) (running : Running) : Running :=
  if running.announce.key.infoHash = infoHash then { running with orphaned := true } else running

def report (dispatcher : Dispatcher) (place : Nat) (announce : Announce)
    (result : Except String AnnounceResponse) (now : Nat) : Dispatcher :=
  let done :=
    dispatcher.inner.finishAnnounce announce.key announce.event announce.epoch result now
  { dispatcher with
    inner := done.1
    running := dispatcher.running.eraseIdx place
    outcomes := dispatcher.outcomes ++ [done.2] }

def setStage (dispatcher : Dispatcher) (place : Nat) (running : Running) (stage : Stage) : Dispatcher :=
  { dispatcher with running := dispatcher.running.set place { running with stage := stage } }

def step (dispatcher : Dispatcher) : Label -> Option Dispatcher
  | .addTrackers infoHash urls now =>
    some { dispatcher with inner := dispatcher.inner.addTrackers infoHash urls now }
  | .updateTorrent snap now =>
    some { dispatcher with inner := dispatcher.inner.updateTorrent snap now }
  | .announceNow infoHash now =>
    some { dispatcher with inner := dispatcher.inner.announceNow infoHash now }
  | .removeTorrent infoHash =>
    let removed := dispatcher.inner.removeTorrent infoHash
    some { dispatcher with
      inner := removed.1
      stops := dispatcher.stops ++ removed.2
      running := dispatcher.running.map (orphan infoHash) }
  | .resetClients => some { dispatcher with inner := dispatcher.inner.resetClients }
  | .dispatch order now =>
    if order.Perm dispatcher.inner.slots.keys then
      let picked := dispatcher.inner.dispatchOnce order now
      some { dispatcher with
        inner := picked.1
        running := dispatcher.running ++ picked.2.map (fun announce => { announce := announce }) }
    else none
  | .lookupClient place =>
    match dispatcher.running[place]? with
    | none => none
    | some running =>
      if running.stage ≠ .spawned then none
      else if running.announce.key.url ∈ dispatcher.inner.clients then
        some (dispatcher.setStage place running .announcing)
      else some (dispatcher.setStage place running .connecting)
  | .connect place error now =>
    match dispatcher.running[place]? with
    | none => none
    | some running =>
      if running.stage ≠ .connecting then none
      else
        match error with
        | none =>
          let clients := insert running.announce.key.url dispatcher.inner.clients
          some ({ dispatcher with
            inner := { dispatcher.inner with clients := clients } }.setStage place running
              .announcing)
        | some message => some (dispatcher.report place running.announce (.error message) now)
  | .finish place result now =>
    match dispatcher.running[place]? with
    | none => none
    | some running =>
      if running.stage ≠ .announcing then none
      else some (dispatcher.report place running.announce result now)

/-- A dispatcher starts without torrents. -/
def machine : Machine Dispatcher Label where
  init := fun dispatcher => dispatcher = {}
  step := step

end Dispatcher
end TorrentPlayer.Discovery
