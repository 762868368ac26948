import Mathlib.Data.Finset.Dedup
import Mathlib.Data.List.Nodup
import TorrentPlayer.Core.Pex
import TorrentPlayer.Library.ChangeLogs
import TorrentPlayer.Library.Machine

namespace TorrentPlayer.Core
namespace Pex

open Library SocketAddr PexState MsgFactory List Option

/-!
# The copy a connection builds from its PEX messages

The feed is put beside the addresses that are live and the copy one connection
has built from its messages.  The events are a log of insertions and removals,
and the factory computes the difference a window of the log makes; so the copy
follows the log as long as the log alternates.  It alternates when no address
comes back while a drop of it is held.
-/

namespace PexMsg

def addedAddrs (msg : PexMsg) : List SocketAddr :=
  msg.added.map .v4 ++ msg.added6.map .v6

def droppedAddrs (msg : PexMsg) : List SocketAddr :=
  msg.dropped.map .v4 ++ msg.dropped6.map .v6

def applyTo (msg : PexMsg) (view : Finset SocketAddr) : Finset SocketAddr :=
  (view ∪ msg.addedAddrs.toFinset) \ msg.droppedAddrs.toFinset

end PexMsg

/-- The feed, the addresses that are live, and the copy of one connection with
its cursor. -/
structure Exchange where
  pex : PexState
  live : Finset SocketAddr
  cursor : Option PexCursor
  view : Finset SocketAddr

inductive ExchangeLabel where
  | add (addr : SocketAddr) (flags : PexFlags)
  | dropListed (addr : SocketAddr) (flags : PexFlags)
  | genmsg

namespace Exchange

def opened : Exchange := ⟨{}, ∅, none, ∅⟩

/-- A usable address is added only while it is not live and dropped only while
it is.  The calls ignore the other addresses. -/
def step (exchange : Exchange) : ExchangeLabel -> Option Exchange
  | .add addr flags =>
    if usableAddr addr = false then
      some { exchange with pex := exchange.pex.add addr flags }
    else if addr ∈ exchange.live then none
    else
      some { exchange with
        pex := exchange.pex.add addr flags
        live := insert addr exchange.live }
  | .dropListed addr flags =>
    if usableAddr addr = false then
      some { exchange with pex := exchange.pex.dropListed addr flags }
    else if addr ∈ exchange.live then
      some { exchange with
        pex := exchange.pex.dropListed addr flags
        live := exchange.live.erase addr }
    else none
  | .genmsg =>
    let sent := exchange.pex.genmsg exchange.cursor
    some { exchange with
      cursor := some sent.2
      view := sent.1.applyTo exchange.view }

def machine : Machine Exchange ExchangeLabel where
  init := fun exchange => exchange = opened
  step := step

/-- The connection has been sent every event on the feed. -/
def AtEnd (exchange : Exchange) : Prop :=
  exchange.cursor.map PexCursor.begin = some exchange.pex.events.length

instance (exchange : Exchange) : Decidable exchange.AtEnd :=
  inferInstanceAs (Decidable (_ = _))

/-- An address comes back only when no drop of it is held, or when its return
reaches the target and releases what is held first. -/
def Released (exchange : Exchange) : ExchangeLabel -> Prop
  | .add addr _ =>
    usableAddr addr = true -> (∀ e ∈ exchange.pex.hold, e.addr ≠ addr) ∨ pexTargAdded <= exchange.pex.nc + 1
  | .dropListed _ _ | .genmsg => True

instance (exchange : Exchange) (label : ExchangeLabel) : Decidable (exchange.Released label) :=
  match label with
  | .add _ _ => inferInstanceAs (Decidable (_ -> _))
  | .dropListed _ _ | .genmsg => isTrue trivial

end Exchange

/-! ## The factory computes the difference of a window -/

/-- The list of one message field and the set the factory keeps beside it. -/
structure Listed {A : Type} (list : List A) (set : Finset SocketAddr)
    (wrap : A -> SocketAddr) : Prop where
  once : list.Nodup
  mem : ∀ a, a ∈ list <-> wrap a ∈ set

namespace Listed

variable {A : Type} {list : List A} {set : Finset SocketAddr} {wrap : A -> SocketAddr}

theorem removeAt_eq_erase [DecidableEq A] (list : List A) (element : A) :
    removeAt list element = list.erase element := by
  rw [erase_eq_eraseIdx]
  rfl

variable (listed : Listed list set wrap)
include listed

theorem push (injective : Function.Injective wrap) {a : A}
    (absent : wrap a ∉ set) : Listed (list ++ [a]) (insert (wrap a) set) wrap := by
  constructor
  · apply List.Nodup.append listed.once (nodup_singleton a)
    intro b member single
    rw [mem_singleton.mp single] at member
    exact absent ((listed.mem a).mp member)
  · intro b
    rw [mem_append, mem_singleton, Finset.mem_insert, listed.mem b, injective.eq_iff, or_comm]

theorem remove [DecidableEq A] (injective : Function.Injective wrap) (a : A) :
    Listed (removeAt list a) (set.erase (wrap a)) wrap := by
  rw [removeAt_eq_erase]
  constructor
  · exact listed.once.erase a
  intro b
  rw [listed.once.mem_erase_iff, Finset.mem_erase, listed.mem b, injective.ne_iff]

theorem insert_other {key : SocketAddr}
    (other : ∀ a, wrap a ≠ key) : Listed list (insert key set) wrap := by
  refine ⟨listed.once, fun a => ?_⟩
  rw [Finset.mem_insert, listed.mem a]
  exact (or_iff_right (other a)).symm

theorem erase_other {key : SocketAddr} (other : ∀ a, wrap a ≠ key) : Listed list (set.erase key) wrap := by
  refine ⟨listed.once, fun a => ?_⟩
  rw [Finset.mem_erase, listed.mem a]
  exact (and_iff_right (other a)).symm

end Listed

theorem v4_injective : Function.Injective v4 := by
  intro a b same
  exact v4.inj same

theorem v6_injective : Function.Injective v6 := by
  intro a b same
  exact v6.inj same

def PexEvent.change (e : PexEvent) : Change SocketAddr :=
  match e.kind with
  | .add => .insert e.addr
  | .drop => .remove e.addr

def changes (events : List PexEvent) : List (Change SocketAddr) :=
  events.map PexEvent.change

namespace MsgFactory

structure Faithful (factory : MsgFactory) : Prop where
  added : Listed factory.msg.added factory.added .v4
  added6 : Listed factory.msg.added6 factory.added .v6
  dropped : Listed factory.msg.dropped factory.dropped .v4
  dropped6 : Listed factory.msg.dropped6 factory.dropped .v6

def delta (factory : MsgFactory) : Delta SocketAddr :=
  ⟨factory.added, factory.dropped⟩

theorem delta_append (factory : MsgFactory) (e : PexEvent) :
    (factory.append e).delta = factory.delta.append e.change := by
  unfold append PexEvent.change
  cases e.kind with
  | add =>
    dsimp only
    unfold add
    split
    next added => exact (if_pos added).symm
    next notAdded =>
      split
      next dropped => exact ((if_neg notAdded).trans (if_pos dropped)).symm
      next notDropped => exact ((if_neg notAdded).trans (if_neg notDropped)).symm
  | drop =>
    dsimp only
    unfold drop
    split
    next dropped => exact (if_pos dropped).symm
    next notDropped =>
      split
      next added => exact ((if_neg notDropped).trans (if_pos added)).symm
      next notAdded => exact ((if_neg notDropped).trans (if_neg notAdded)).symm

theorem delta_foldl (factory : MsgFactory) (events : List PexEvent) :
    (events.foldl append factory).delta = (changes events).foldl Delta.append factory.delta := by
  induction events generalizing factory with
  | nil => rfl
  | cons e rest ih =>
    rw [foldl_cons, ih, delta_append]
    rfl

theorem faithful_empty : Faithful {} := by
  constructor <;> constructor <;> simp

variable {factory : MsgFactory}

section
variable (faithful : factory.Faithful)
include faithful

theorem Faithful.append (e : PexEvent) : (factory.append e).Faithful := by
  rcases e with ⟨kind, addr, flags⟩
  cases kind with
  | add =>
    simp only [MsgFactory.append, MsgFactory.add]
    split
    · exact faithful
    rename_i absent
    split
    · cases addr with
      | v4 a =>
        exact ⟨faithful.added, faithful.added6, faithful.dropped.remove v4_injective a,
          faithful.dropped6.erase_other nofun⟩
      | v6 a =>
        exact ⟨faithful.added, faithful.added6,
          faithful.dropped.erase_other nofun, faithful.dropped6.remove v6_injective a⟩
    · cases addr with
      | v4 =>
        exact ⟨faithful.added.push v4_injective absent, faithful.added6.insert_other nofun,
          faithful.dropped, faithful.dropped6⟩
      | v6 =>
        exact ⟨faithful.added.insert_other nofun,
          faithful.added6.push v6_injective absent, faithful.dropped, faithful.dropped6⟩
  | drop =>
    simp only [MsgFactory.append, MsgFactory.drop]
    split
    · exact faithful
    rename_i absent
    split
    · cases addr with
      | v4 a =>
        exact ⟨faithful.added.remove v4_injective a, faithful.added6.erase_other nofun,
          faithful.dropped, faithful.dropped6⟩
      | v6 a =>
        exact ⟨faithful.added.erase_other nofun,
          faithful.added6.remove v6_injective a, faithful.dropped, faithful.dropped6⟩
    · cases addr with
      | v4 =>
        exact ⟨faithful.added, faithful.added6, faithful.dropped.push v4_injective absent,
          faithful.dropped6.insert_other nofun⟩
      | v6 =>
        exact ⟨faithful.added, faithful.added6,
          faithful.dropped.insert_other nofun, faithful.dropped6.push v6_injective absent⟩

theorem Faithful.foldl (events : List PexEvent) : (events.foldl MsgFactory.append factory).Faithful := by
  induction events generalizing factory with
  | nil => exact faithful
  | cons e rest ih => exact ih (faithful.append e)

theorem Faithful.mem_addedAddrs (addr : SocketAddr) :
    addr ∈ factory.msg.addedAddrs <-> addr ∈ factory.added := by
  cases addr with
  | v4 => simp [PexMsg.addedAddrs, faithful.added.mem]
  | v6 => simp [PexMsg.addedAddrs, faithful.added6.mem]

theorem Faithful.mem_droppedAddrs (addr : SocketAddr) :
    addr ∈ factory.msg.droppedAddrs <-> addr ∈ factory.dropped := by
  cases addr with
  | v4 => simp [PexMsg.droppedAddrs, faithful.dropped.mem]
  | v6 => simp [PexMsg.droppedAddrs, faithful.dropped6.mem]

end

theorem applyTo_foldl (events : List PexEvent) (view : Finset SocketAddr) :
    (events.foldl append {}).msg.applyTo view = (Delta.collect (changes events)).apply view := by
  have faithful := faithful_empty.foldl events
  have same := delta_foldl {} events
  have difference : (events.foldl append {}).delta = Delta.collect (changes events) := same
  rw [<- difference]
  ext addr
  simp only [PexMsg.applyTo, Delta.apply, Finset.mem_sdiff, Finset.mem_union,
    List.mem_toFinset, faithful.mem_addedAddrs, faithful.mem_droppedAddrs, delta]

end MsgFactory

namespace PexState

theorem fillMsg_spec (factory : MsgFactory) (last : Option Nat)
    (i : Nat) (starts : PexCursor.begin ⟨last⟩ = i) (events : List PexEvent) : Exists fun n : Nat => n <=
    events.length /\ (fillMsg factory last i events).1 = (events.take n).foldl append factory /\
    PexCursor.begin ⟨(fillMsg factory last i events).2⟩ = i + n := by
  induction events generalizing factory last i with
  | nil => exact ⟨0, Nat.le_refl 0, rfl, starts⟩
  | cons e rest ih =>
    rw [fillMsg]
    split
    · exact ⟨0, Nat.zero_le _, rfl, starts⟩
    rcases ih (factory.append e) (some i) (i + 1) rfl with ⟨n, within, filled, next⟩
    refine ⟨n + 1, Nat.succ_le_succ within, filled, ?_⟩
    omega

/-- The first event the next message looks at, before and after the first
call. -/
def begin (cursor : Option PexCursor) : Nat :=
  match cursor with
  | none => 0
  | some cursor => cursor.begin

theorem genmsg_spec (pex : PexState) (cursor : Option PexCursor)
    (within : begin cursor <= pex.events.length) (view : Finset SocketAddr) :
    Exists fun n : Nat => begin cursor + n <= pex.events.length /\
    (pex.genmsg cursor).2.begin = begin cursor + n /\ (pex.genmsg cursor).1.applyTo view =
      (Delta.collect (((changes pex.events).drop (begin cursor)).take n)).apply view := by
  cases cursor with
  | none =>
    refine ⟨pex.events.length, by simp [begin], ?_, ?_⟩
    · simp only [genmsg, begin, Nat.zero_add]
      split
      · rename_i empty
        rw [empty]
        rfl
      · rename_i some
        have positive : 0 < pex.events.length := length_pos_iff.mpr some
        simp only [PexCursor.begin]
        omega
    · have whole : ((changes pex.events).drop 0).take pex.events.length =
          changes pex.events := by
        simp [changes]
      rw [begin, whole]
      exact applyTo_foldl pex.events view
  | some cursor =>
    rcases fillMsg_spec {} cursor.index cursor.begin rfl (pex.events.drop cursor.begin) with
      ⟨n, taken, filled, next⟩
    rw [length_drop] at taken
    have within : cursor.begin <= pex.events.length := within
    refine ⟨n, by simp only [begin]; omega, next, ?_⟩
    simp only [genmsg, filled, begin, applyTo_foldl, changes, map_take, map_drop]

end PexState

/-! ## The invariant of an exchange -/

namespace Exchange

/-- The feed and the held drops alternate and lead to the live addresses; the
copy is what the events sent so far lead to. -/
structure Current (exchange : Exchange) : Prop where
  held : ∀ change ∈ changes exchange.pex.hold, change.isRemove = true
  log : ∀ addr, follow addr false (changes exchange.pex.events ++ changes exchange.pex.hold) =
    some (decide (addr ∈ exchange.live))
  within : begin exchange.cursor <= exchange.pex.events.length
  sent : ∀ addr, follow addr false ((changes exchange.pex.events).take (begin exchange.cursor)) =
      some (decide (addr ∈ exchange.view))

theorem current_opened : opened.Current := by
  constructor <;> simp [opened, changes, follow, begin]

variable {exchange : Exchange}

section
variable (current : exchange.Current)
include current

/-- Events put at the end of the feed do not touch what was sent. -/
theorem Current.extend (pex : PexState) (live : Finset SocketAddr)
    (more : List PexEvent) (extended : pex.events = exchange.pex.events ++ more)
    (held : ∀ change ∈ changes pex.hold, change.isRemove = true)
    (log : ∀ addr, follow addr false (changes pex.events ++ changes pex.hold) =
      some (decide (addr ∈ live))) : Current { exchange with pex := pex, live := live } := by
  have within := current.within
  refine ⟨held, log, ?_, ?_⟩
  · simp only [extended, length_append]
    omega
  · intro addr
    have short : begin exchange.cursor <= (changes exchange.pex.events).length := by
      simpa [changes] using within
    have same : (changes pex.events).take (begin exchange.cursor) =
        (changes exchange.pex.events).take (begin exchange.cursor) := by
      rw [extended, changes, map_append]
      exact take_append_of_le_length short
    rw [<- current.sent addr, <- same]

theorem Current.add {addr : SocketAddr} {flags : PexFlags}
    (usable : ¬usableAddr addr = false) (absent : addr ∉ exchange.live)
    (released : exchange.Released (.add addr flags)) : Current { exchange with
      pex := exchange.pex.add addr flags
      live := insert addr exchange.live } := by
  have inserted : ∀ other, follow other (decide (other ∈ exchange.live))
      (changes [⟨.add, addr, flags⟩]) = some (decide (other ∈ insert addr exchange.live)) :=
    fun other => follow_insert_mem other absent
  unfold PexState.add
  rw [if_neg usable]
  dsimp only
  split
  · refine current.extend _ _ (exchange.pex.hold ++ [⟨.add, addr, flags⟩]) (append_assoc _ _ _) nofun ?_
    intro other
    rw [changes, map_append, map_append, changes, map_nil, append_nil, follow_append]
    have logged := current.log other
    rw [changes, changes] at logged
    rw [logged]
    exact inserted other
  next below =>
    -- The event is put before what is held, which has no drop of this address.
    refine current.extend _ _ [⟨.add, addr, flags⟩] rfl current.held ?_
    intro other
    have notHeld : ∀ change ∈ changes exchange.pex.hold, change.key ≠ (Change.insert addr).key := by
      rcases released (Bool.eq_true_of_not_eq_false usable) with free | reached
      · intro change member
        rcases mem_map.mp member with ⟨e, inHold, rfl⟩
        have key : e.change.key = e.addr := by
          unfold PexEvent.change
          cases e.kind <;> rfl
        rw [key]
        exact free e inHold
      · exact absurd reached below
    have moved := follow_insert_change other false (changes exchange.pex.events)
      (changes exchange.pex.hold) notHeld
    rw [current.log other] at moved
    rw [changes, map_append]
    exact moved.trans (inserted other)

theorem Current.dropListed {addr : SocketAddr} {flags : PexFlags}
    (usable : ¬usableAddr addr = false) (present : addr ∈ exchange.live) : Current { exchange with
      pex := exchange.pex.dropListed addr flags
      live := exchange.live.erase addr } := by
  have removed : ∀ other, follow other (decide (other ∈ exchange.live))
      (changes [⟨.drop, addr, flags⟩]) = some (decide (other ∈ exchange.live.erase addr)) :=
    fun other => follow_remove_mem other present
  unfold PexState.dropListed
  rw [if_neg usable]
  dsimp only
  split
  · refine current.extend _ _ [] (append_nil _).symm ?_ ?_
    · intro change member
      rw [changes, map_append, mem_append] at member
      rcases member with before | added
      · exact current.held change before
      rw [mem_singleton.mp added]
      rfl
    · intro other
      have logged := current.log other
      simp only [changes, map_append] at logged removed ⊢
      rw [<- append_assoc, follow_append, logged]
      exact removed other
  · refine current.extend _ _ [⟨.drop, addr, flags⟩] rfl current.held ?_
    intro other
    -- A live address has no drop among the held ones.
    have logged := current.log addr
    rw [decide_eq_true present, follow_append] at logged
    rcases bind_eq_some_iff.mp logged with ⟨between, _, last⟩
    have notHeld : ∀ change ∈ changes exchange.pex.hold, change.key ≠ (Change.remove addr).key :=
      ne_of_follow_removes current.held last
    have moved := follow_insert_change other false (changes exchange.pex.events)
      (changes exchange.pex.hold) notHeld
    rw [current.log other] at moved
    rw [changes, map_append]
    exact moved.trans (removed other)

theorem Current.genmsg : Current { exchange with
      cursor := some (exchange.pex.genmsg exchange.cursor).2
      view := (exchange.pex.genmsg exchange.cursor).1.applyTo exchange.view } := by
  rcases exchange.pex.genmsg_spec exchange.cursor current.within exchange.view with
    ⟨n, within, next, applied⟩
  refine ⟨current.held, current.log, ?_, ?_⟩
  · rw [begin, next]
    exact within
  · intro addr
    rw [begin, next, applied, take_add, follow_append, current.sent addr, bind_some]
    -- The whole log has an answer for this address, so each part of it has one.
    have logged := current.log addr
    rw [<- take_append_drop (begin exchange.cursor + n)
        (changes exchange.pex.events), append_assoc, follow_append, take_add,
      follow_append, current.sent addr, bind_some] at logged
    rcases bind_eq_some_iff.mp logged with ⟨after, window, _⟩
    rw [window]
    have copied := Delta.mem_apply_collect window
    cases after with
    | false | true => simp [copied]

theorem current_step {after : Exchange} {label : ExchangeLabel}
    (released : exchange.Released label) (taken : exchange.step label = some after) : after.Current := by
  cases label with
  | add =>
    simp only [step] at taken
    split at taken
    next unusable =>
      rw [PexState.add, if_pos unusable] at taken
      cases taken
      exact current
    next usable =>
      split at taken
      · cases taken
      rename_i absent
      cases taken
      exact current.add usable absent released
  | dropListed =>
    simp only [step] at taken
    split at taken
    next unusable =>
      rw [dropListed, if_pos unusable] at taken
      cases taken
      exact current
    next usable =>
      split at taken
      · rename_i present
        cases taken
        exact current.dropListed usable present
      · cases taken
  | genmsg =>
    cases taken
    exact current.genmsg

end

/-- In every run where no address comes back under a held drop, a connection
that was sent the whole feed while nothing is held knows exactly the live
addresses. -/
theorem view_eq_live_of_released_run {labels : List ExchangeLabel} {exchange : Exchange}
    (run : machine.RunsTo Released labels exchange) (atEnd : exchange.AtEnd)
    (nothingHeld : exchange.pex.hold = []) : exchange.view = exchange.live := by
  have current : exchange.Current := by
    refine run.stateInvariant ?_ ?_
    · intro state initial
      rw [initial]
      exact current_opened
    · intro state label after invariant released taken
      exact current_step invariant released taken
  rcases map_eq_some_iff.mp atEnd with ⟨cursor, known, reached⟩
  ext addr
  have sent := current.sent addr
  have log := current.log addr
  have whole : (changes exchange.pex.events).length <= cursor.begin := by
    rw [reached]
    simp [changes]
  rw [known, begin, take_of_length_le whole] at sent
  rw [nothingHeld, changes, changes, map_nil, append_nil] at log
  have same := Option.some.inj (sent.symm.trans log)
  exact decide_eq_decide.mp same

/-- An address of the local network, by its last byte. -/
def host (n : UInt32) : SocketAddr :=
  .v4 ⟨0x0a000000 + n, 6881⟩

/-- The connection is told of two peers; one of them leaves, and its drop is
released by the arrival of others. -/
def leaveAndFill : List ExchangeLabel :=
  [.add (host 1) {}, .add (host 2) {}, .genmsg, .dropListed (host 1) {}] ++
    (List.range 24).map (fun n => .add (host (3 + n.toUInt32)) {}) ++ [.genmsg]

theorem view_eq_live_leaveAndFill : Exists fun exchange : Exchange =>
      machine.RunsTo Released leaveAndFill exchange ∧ exchange.pex.hold = [] ∧
        exchange.view = exchange.live := by
  have run : machine.RunsTo Released leaveAndFill
      ((machine.exec opened leaveAndFill).get (by decide +kernel)) :=
    .of_exec_isSome rfl (by decide +kernel) _
  have nothingHeld : ((machine.exec opened leaveAndFill).get (by decide +kernel)).pex.hold = [] := by
    decide +kernel
  have atEnd : ((machine.exec opened leaveAndFill).get (by decide +kernel)).AtEnd := by
    decide +kernel
  exact ⟨_, run, nothingHeld, view_eq_live_of_released_run run atEnd nothingHeld⟩

/-- A peer leaves, comes back, and its old drop is released by the arrival of
others. -/
def leaveAndReturn : List ExchangeLabel :=
  [.add (host 1) {}, .dropListed (host 1) {}, .add (host 1) {}] ++
    (List.range 24).map (fun n => .add (host (2 + n.toUInt32)) {}) ++ [.genmsg]

/-- The connection is at the end of the feed, nothing is held, and a live
address is missing from its copy. -/
theorem live_address_missing_after_return : Exists fun exchange : Exchange =>
      machine.RunsTo Machine.always leaveAndReturn exchange ∧ exchange.AtEnd ∧
        exchange.pex.hold = [] ∧ host 1 ∈ exchange.live ∧ host 1 ∉ exchange.view := by
  have run : machine.RunsTo Machine.always leaveAndReturn
      ((machine.exec opened leaveAndReturn).get (by decide +kernel)) :=
    .of_exec_isSome rfl (Machine.permits_always _ _ _) _
  refine ⟨_, run, ?_, ?_, ?_, ?_⟩ <;> decide +kernel

end Exchange
end Pex
end TorrentPlayer.Core
