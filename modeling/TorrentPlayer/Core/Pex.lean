import Mathlib.Data.Finset.Card
import Mathlib.Data.Finset.SDiff

namespace TorrentPlayer.Core
namespace Pex

/-!
# Peer exchange

`wt-core/src/pex/mod.rs`.  A torrent keeps one feed of connection events and
every connection reads it through a cursor of its own, as messages that list
the addresses to add and to drop.  While few connections are listed a drop is
not put on the feed but held back, so that the other peers do not lose the
last addresses they know.

This module translates the feed and the message factory.  What was received
from other peers (`ingest`) and the timers of a connection are left out.
-/

structure SocketAddrV4 where
  ip : UInt32
  port : UInt16
  deriving DecidableEq

structure SocketAddrV6 where
  ip : BitVec 128
  port : UInt16
  flowinfo : UInt32
  scopeId : UInt32
  deriving DecidableEq

inductive SocketAddr where
  | v4 (addr : SocketAddrV4)
  | v6 (addr : SocketAddrV6)
  deriving DecidableEq

/-- Neither the unspecified address nor port zero. -/
def usableAddr : SocketAddr -> Bool
  | .v4 addr | .v6 addr => addr.ip != 0 && addr.port != 0

structure PexFlags where
  prefersEncryption : Bool := false
  seedOnly : Bool := false
  supportsUtp : Bool := false
  supportsHolepunch : Bool := false
  reachable : Bool := false
  deriving DecidableEq

structure PexMsg where
  added : List SocketAddrV4 := []
  addedFlags : List PexFlags := []
  added6 : List SocketAddrV6 := []
  added6Flags : List PexFlags := []
  dropped : List SocketAddrV4 := []
  dropped6 : List SocketAddrV6 := []

inductive EventType where
  | add
  | drop

structure PexEvent where
  kind : EventType
  addr : SocketAddr
  flags : PexFlags

def pexTargAdded : Int32 := 25
def pexMaxHold : Nat := 25
def pexMaxDelta : Nat := 50

def removeAt {A : Type} [DecidableEq A] (list : List A) (element : A) : List A :=
  match list.idxOf? element with
  | none => list
  | some i => list.eraseIdx i

/-- Remove the flags beside the first match, when there are that many. -/
def removeFlagsAt {A : Type} [DecidableEq A] (list : List A) (flags : List PexFlags)
    (element : A) : List PexFlags :=
  match list.idxOf? element with
  | none => flags
  | some i => if i < flags.length then flags.eraseIdx i else flags

def removeAdded (msg : PexMsg) : SocketAddr -> PexMsg
  | .v4 a =>
    { msg with
      added := removeAt msg.added a
      addedFlags := removeFlagsAt msg.added msg.addedFlags a }
  | .v6 a =>
    { msg with
      added6 := removeAt msg.added6 a
      added6Flags := removeFlagsAt msg.added6 msg.added6Flags a }

def removeDropped (msg : PexMsg) : SocketAddr -> PexMsg
  | .v4 a => { msg with dropped := removeAt msg.dropped a }
  | .v6 a => { msg with dropped6 := removeAt msg.dropped6 a }

def pushAdded (msg : PexMsg) (flags : PexFlags) : SocketAddr -> PexMsg
  | .v4 a =>
    { msg with added := msg.added ++ [a], addedFlags := msg.addedFlags ++ [flags] }
  | .v6 a =>
    { msg with added6 := msg.added6 ++ [a], added6Flags := msg.added6Flags ++ [flags] }

def pushDropped (msg : PexMsg) : SocketAddr -> PexMsg
  | .v4 a => { msg with dropped := msg.dropped ++ [a] }
  | .v6 a => { msg with dropped6 := msg.dropped6 ++ [a] }

structure MsgFactory where
  msg : PexMsg := {}
  added : Finset SocketAddr := ∅
  dropped : Finset SocketAddr := ∅

namespace MsgFactory

def deltaLen (factory : MsgFactory) : Nat :=
  max factory.added.card factory.dropped.card

def add (factory : MsgFactory) (e : PexEvent) : MsgFactory :=
  if e.addr ∈ factory.added then factory
  else if e.addr ∈ factory.dropped then
    { factory with
      msg := removeDropped factory.msg e.addr
      dropped := factory.dropped.erase e.addr }
  else
    { factory with
      msg := pushAdded factory.msg e.flags e.addr
      added := insert e.addr factory.added }

def drop (factory : MsgFactory) (e : PexEvent) : MsgFactory :=
  if e.addr ∈ factory.dropped then factory
  else if e.addr ∈ factory.added then
    { factory with
      msg := removeAdded factory.msg e.addr
      added := factory.added.erase e.addr }
  else
    { factory with
      msg := pushDropped factory.msg e.addr
      dropped := insert e.addr factory.dropped }

def append (factory : MsgFactory) (e : PexEvent) : MsgFactory :=
  match e.kind with
  | .add => factory.add e
  | .drop => factory.drop e

end MsgFactory

/-- The index of the last event consumed; there is none at the start, where
the source has `usize::MAX`. -/
structure PexCursor where
  index : Option Nat

namespace PexCursor

def start : PexCursor := ⟨none⟩

/-- The first event a message from this cursor looks at. -/
def begin (cursor : PexCursor) : Nat :=
  match cursor.index with
  | none => 0
  | some index => index + 1

end PexCursor

structure PexState where
  events : List PexEvent := []
  hold : List PexEvent := []
  nc : Int32 := 0

namespace PexState

/-- Record a new live connection.  Reaching the target releases what is
held. -/
def add (pex : PexState) (addr : SocketAddr) (flags : PexFlags) : PexState :=
  if usableAddr addr = false then pex
  else
    let nc := pex.nc + 1
    let event : PexEvent := ⟨.add, addr, flags⟩
    if pexTargAdded <= nc then
      { events := pex.events ++ pex.hold ++ [event], hold := [], nc := nc }
    else
      { events := pex.events ++ [event], hold := pex.hold, nc := nc }

/-- Record a disconnect for a connection that was added before. -/
def dropListed (pex : PexState) (addr : SocketAddr) (flags : PexFlags) : PexState :=
  if usableAddr addr = false then pex
  else
    let nc := pex.nc - 1
    let event : PexEvent := ⟨.drop, addr, flags⟩
    if nc < pexTargAdded /\ pex.hold.length < pexMaxHold then
      { pex with hold := pex.hold ++ [event], nc := nc }
    else
      { pex with events := pex.events ++ [event], nc := nc }

/-- The whole feed in one message, without a cap. -/
def initialMsg (pex : PexState) : PexMsg :=
  (pex.events.foldl MsgFactory.append {}).msg

/-- The loop of `genmsg` over the events from index `i` on. -/
def fillMsg : MsgFactory -> Option Nat -> Nat -> List PexEvent -> MsgFactory × Option Nat
  | factory, last, _, [] => (factory, last)
  | factory, last, i, e :: rest =>
    if pexMaxDelta <= factory.deltaLen then (factory, last)
    else fillMsg (factory.append e) (some i) (i + 1) rest

/-- The next message of a connection, and the cursor it passes back. -/
def genmsg (pex : PexState) : Option PexCursor -> PexMsg × PexCursor
  | none =>
    (pex.initialMsg,
      if pex.events = [] then PexCursor.start else ⟨some (pex.events.length - 1)⟩)
  | some cursor =>
    let filled := fillMsg {} cursor.index cursor.begin (pex.events.drop cursor.begin)
    (filled.1.msg, ⟨filled.2⟩)

end PexState
end Pex
end TorrentPlayer.Core
