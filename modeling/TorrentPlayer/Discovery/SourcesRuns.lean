import TorrentPlayer.Discovery.Sources
import TorrentPlayer.Discovery.AnnouncerRuns

namespace TorrentPlayer.Discovery

open Library Sources Dispatcher Section List

/-!
# What is left of a torrent that was unregistered

Unregistering clears what it finds: the slots of the hash, and the clients and
the task that the entry holds.  Another call may have looked at the registry
before and create more afterwards.  A slot made then stays in the dispatcher, a
client that finds no entry is never closed, and a task that replaces another
one in the entry, or comes to an entry that was cleared, runs on.

Each of these is one section of a call.  The runs in which none of them comes
too late leave nothing behind.  The invariant says who will clear a thing: the
registry still leads to it, or a call in progress has it on its list.
-/

/-! ## Sections that are still to run -/

def Pending (calls : List Call) (wanted : Section) : Prop :=
  Exists fun call => call ∈ calls /\ wanted ∈ call.todo

variable {calls : List Call} {wanted : Section}

theorem Pending.append (pending : Pending calls wanted) (call : Call) : Pending (calls ++ [call]) wanted := by
  rcases pending with ⟨other, member, listed⟩
  exact ⟨other, mem_append_left _ member, listed⟩

variable {call : Call}

theorem Pending.of_last (listed : wanted ∈ call.todo) : Pending (calls ++ [call]) wanted :=
  ⟨call, mem_append_right _ (mem_singleton.mpr rfl), listed⟩

theorem Pending.of_append (pending : Pending (calls ++ [call]) wanted) :
    Pending calls wanted \/ wanted ∈ call.todo := by
  rcases pending with ⟨other, member, listed⟩
  rcases mem_append.mp member with old | new
  · exact .inl ⟨other, old, listed⟩
  rw [mem_singleton.mp new] at listed
  exact .inr listed

variable {more : List Section}

theorem Pending.set {next : Section} {rest : List Section} {place : Nat}
    (found : calls[place]? = some call) (isTodo : call.todo = next :: rest)
    (pending : Pending calls wanted) (other : wanted ≠ next) :
    Pending (calls.set place { call with todo := more ++ rest }) wanted := by
  rcases pending with ⟨holder, member, listed⟩
  rcases mem_iff_getElem?.mp member with ⟨index, isHolder⟩
  by_cases same : index = place
  · rw [same, found] at isHolder
    cases isHolder
    rw [isTodo] at listed
    rcases mem_cons.mp listed with first | later
    · exact absurd first other
    refine ⟨_, mem_set (List.getElem?_eq_some_iff.mp found).1 _, ?_⟩
    exact mem_append_right _ later
  · refine ⟨holder, mem_iff_getElem?.mpr ⟨index, ?_⟩, listed⟩
    rw [getElem?_set_ne (fun equal => same equal.symm)]
    exact isHolder

theorem Pending.of_more {rest : List Section} {place : Nat}
    (found : calls[place]? = some call) (listed : wanted ∈ more) :
    Pending (calls.set place { call with todo := more ++ rest }) wanted :=
  ⟨_, mem_set (List.getElem?_eq_some_iff.mp found).1 _, mem_append_left _ listed⟩

theorem Pending.eraseIdx {place : Nat} (found : calls[place]? = some call)
    (done : call.todo = []) (pending : Pending calls wanted) : Pending (calls.eraseIdx place) wanted := by
  rcases pending with ⟨holder, member, listed⟩
  refine ⟨holder, ?_, listed⟩
  rcases List.getElem?_eq_some_iff.mp found with ⟨inside, isCall⟩
  have perm := getElem_cons_eraseIdx_perm inside
  rcases mem_cons.mp (perm.mem_iff.mpr member) with same | rest
  · rw [same, isCall, done] at listed
    cases listed
  · exact rest

namespace Sources

variable {infoHash : InfoHash} {sources : Sources}

/-- The entry will be cleared: it is registered, or an unregistering call has
it on its list. -/
def Watched (infoHash : InfoHash) (sources : Sources) (entry : Nat) : Prop :=
  sources.registry.torrents.lookup infoHash = some entry ∨ Pending sources.calls (.closeEntry entry)

/-- Everything that was made for the hash will be cleared. -/
structure Covered (infoHash : InfoHash) (sources : Sources) : Prop where
  slots : ∀ key slot, sources.dispatcher.slots.lookup key = some slot ->
    key.infoHash = infoHash -> infoHash ∈ sources.registry.registered ∨
      Pending sources.calls (.removeSlots infoHash)
  clients : ∀ place client, sources.clients[place]? = some client -> client.isOpen = true ->
    (Exists fun entry => Exists fun held => sources.entries[entry]? = some held /\
      place ∈ held.wsClients /\ Watched infoHash sources entry) ∨
      Pending sources.calls (.storeClient infoHash place)
  announcers : ∀ task, sources.announcers[task]? = some true ->
    (Exists fun entry => Exists fun held => sources.entries[entry]? = some held /\
      held.dhtAnnouncer = some task /\ Watched infoHash sources entry) ∨
      Exists fun entry => Pending sources.calls (.storeAnnouncer entry task)
  registered : infoHash ∈ sources.registry.registered <->
    (sources.registry.torrents.lookup infoHash).isSome = true
  valid : ∀ entry, sources.registry.torrents.lookup infoHash = some entry -> entry < sources.entries.length
  primary : ∀ other url, Pending sources.calls (.openClient other url) -> other = infoHash
  stored : ∀ other place, Pending sources.calls (.storeClient other place) -> other = infoHash
  leaving : ∀ call ∈ sources.calls, call.kind = .unregister -> infoHash ∉ sources.registry.registered
  down : sources.down = true -> infoHash ∉ sources.registry.registered

/-- The section does not come too late for the calls that clear up. -/
def InTime (infoHash : InfoHash) (sources : Sources) : Section -> Prop
  | .addTrackers _ _ => infoHash ∈ sources.registry.registered ∨
      Pending sources.calls (.removeSlots infoHash)
  | .storeClient primary _ => (sources.registry.torrents.lookup primary).isSome = true
  | .storeAnnouncer entry _ =>
    (sources.entries[entry]?.any (fun held => held.dhtAnnouncer.isNone)) = true /\
      Watched infoHash sources entry
  | .pushSnapshot _ | .announceNow _ | .openClient _ _ | .askAnnouncer _ | .clearAnnouncer _
  | .spawnAnnouncer _ | .askPaused _ | .pushIfRegistered _ | .announceEntry _ | .removeSlots _
  | .closeEntry _ => True

def nextSection (sources : Sources) (place : Nat) : Option Section :=
  sources.calls[place]?.bind (fun call => call.todo.head?)

/-- No section comes too late, and the hash is not registered again while a
call unregisters it. -/
def Careful (infoHash : InfoHash) (sources : Sources) : Label -> Prop
  | .register _ _ => ∀ call ∈ sources.calls, call.kind ≠ .unregister
  | .run place _ _ => ∀ next ∈ sources.nextSection place, InTime infoHash sources next
  | .addTrackers _ _ | .rediscover _ | .refresh _ | .unregister _ => True

instance (calls : List Call) (wanted : Section) : Decidable (Pending calls wanted) :=
  decidable_of_iff (calls.any (fun call => decide (wanted ∈ call.todo)) = true) (by
    simp only [any_eq_true, decide_eq_true_eq, Pending])

instance (entry : Nat) : Decidable (Watched infoHash sources entry) :=
  inferInstanceAs (Decidable (_ ∨ _))

instance : ∀ wanted : Section, Decidable (InTime infoHash sources wanted)
  | .addTrackers _ _ => inferInstanceAs (Decidable (_ ∨ _))
  | .storeClient _ _ => inferInstanceAs (Decidable (_ = true))
  | .storeAnnouncer _ _ => inferInstanceAs (Decidable (_ /\ _))
  | .pushSnapshot _ | .announceNow _ | .openClient _ _ | .askAnnouncer _ | .clearAnnouncer _
  | .spawnAnnouncer _ | .askPaused _ | .pushIfRegistered _ | .announceEntry _ | .removeSlots _
  | .closeEntry _ => isTrue trivial

instance : ∀ (sources : Sources) (label : Label), Decidable (Careful infoHash sources label)
  | sources, .register _ _ => inferInstanceAs (Decidable (∀ call ∈ sources.calls, _))
  | sources, .run place _ _ => inferInstanceAs (Decidable (∀ next ∈ sources.nextSection place, _))
  | _, .addTrackers _ _ | _, .rediscover _ | _, .refresh _ | _, .unregister _ => isTrue trivial

def Held (infoHash : InfoHash) (sources : Sources) (has : TorrentEntry -> Prop) : Prop :=
  Exists fun entry => Exists fun held =>
    sources.entries[entry]? = some held /\ has held /\ Watched infoHash sources entry

variable {has : TorrentEntry -> Prop} {after : Sources}

theorem Held.mono (held : Held infoHash sources has)
    (kept : ∀ (entry : Nat) holder, sources.entries[entry]? = some holder -> has holder ->
      Watched infoHash sources entry -> (Exists fun now => after.entries[entry]? = some now /\ has now) /\
        Watched infoHash after entry) : Held infoHash after has := by
  rcases held with ⟨entry, holder, isHolder, isHeld, seen⟩
  rcases kept entry holder isHolder isHeld seen with ⟨⟨now, isNow, still⟩, watched⟩
  exact ⟨entry, now, isNow, still, watched⟩

/-- A call starts or returns: the clients and tasks are where they were. -/
theorem Covered.carry (covered : Covered infoHash sources) (after : Sources)
    (entries : ∀ (entry : Nat) held, sources.entries[entry]? = some held ->
      after.entries[entry]? = some held)
    (clients : after.clients = sources.clients) (announcers : after.announcers = sources.announcers)
    (watched : ∀ entry, Watched infoHash sources entry -> Watched infoHash after entry)
    (pending : ∀ {wanted}, Pending sources.calls wanted -> Pending after.calls wanted) :
    (∀ place client, after.clients[place]? = some client -> client.isOpen = true ->
      Held infoHash after (fun held => place ∈ held.wsClients) \/
      Pending after.calls (.storeClient infoHash place)) /\
    ∀ task, after.announcers[task]? = some true ->
      Held infoHash after (fun held => held.dhtAnnouncer = some task) \/
        Exists fun entry => Pending after.calls (.storeAnnouncer entry task) := by
  have held : ∀ {has}, Held infoHash sources has -> Held infoHash after has :=
    fun held => held.mono (fun entry holder isHolder isHeld seen =>
      ⟨⟨holder, entries entry holder isHolder, isHeld⟩, watched entry seen⟩)
  rw [clients, announcers]
  refine ⟨?_, ?_⟩
  · intro place client found isOpen
    exact (covered.clients place client found isOpen).imp held pending
  · intro task running
    exact (covered.announcers task running).imp held (fun ⟨entry, listed⟩ => ⟨entry, pending listed⟩)

def For (infoHash : InfoHash) : Section -> Prop
  | .openClient primary _ | .storeClient primary _ => primary = infoHash
  | _ => True

/-- A section that clears nothing and keeps nothing with an entry. -/
def Quiet : Section -> Prop
  | .removeSlots _ | .closeEntry _ | .storeClient _ _ | .storeAnnouncer _ _ => False
  | _ => True

theorem Quiet.ne {next other : Section} (quiet : Quiet next) (busy : ¬ Quiet other) : next ≠ other := by
  rintro rfl
  exact busy quiet

/-! ## Starting a call -/

theorem Covered.begin (covered : Covered infoHash sources)
    {kind : CallKind} {todo : List Section} (other : kind ≠ .unregister)
    (own : ∀ wanted ∈ todo, For infoHash wanted) : Covered infoHash (sources.begin kind todo) := by
  have made := covered.carry (sources.begin kind todo) (fun _ _ found => found) rfl rfl
    (fun _ seen => seen.imp id (fun pending => pending.append _)) (fun pending => pending.append _)
  refine ⟨?_, made.1, made.2, covered.registered, covered.valid, ?_, ?_, ?_, ?_⟩
  · intro key slot found isHash
    exact (covered.slots key slot found isHash).imp id fun pending => pending.append _
  · intro primary url pending
    exact pending.of_append.elim (covered.primary primary url) (own (.openClient primary url))
  · intro primary place pending
    exact pending.of_append.elim (covered.stored primary place) (own (.storeClient primary place))
  · intro call member isUnregister
    rcases mem_append.mp member with old | new
    · exact covered.leaving call old isUnregister
    rw [mem_singleton.mp new] at isUnregister
    exact absurd isUnregister other
  · nofun

variable {keys : TorrentKeys} {entry : Nat}

theorem registerTorrent_single {registry after : Registry} (single : keys.allShort = [infoHash])
    (reserved : registry.registerTorrent keys entry = .ok after) :
    infoHash ∉ registry.registered /\ after.cfg = registry.cfg /\
    infoHash ∈ after.registered /\ after.torrents.lookup infoHash = some entry := by
  unfold Registry.registerTorrent at reserved
  rw [single] at reserved
  split at reserved
  · cases reserved
  split at reserved
  · cases reserved
  split at reserved
  · cases reserved
  rename_i free
  have absent : infoHash ∉ registry.registered := by
    have none_ := find?_eq_none.mp free infoHash (mem_singleton.mpr rfl)
    simpa using none_
  have same := Except.ok.inj reserved
  rw [<- same]
  refine ⟨absent, rfl, ?_, ?_⟩
  · exact Finset.mem_insert_self _ _
  · exact AList.lookup_insert _

theorem own_of_clients (single : keys.allShort = [infoHash]) {urls : List String}
    (listed : wanted ∈ urls.map (openClient (keys.allShort.headD default))) : For infoHash wanted := by
  rcases mem_map.mp listed with ⟨_, _, rfl⟩
  rw [single]
  rfl

section
variable (covered : Covered infoHash sources)
include covered

theorem Covered.startRegister (single : keys.allShort = [infoHash])
    (alone : ∀ call ∈ sources.calls, call.kind ≠ .unregister)
    (tiers : List (List String)) : Covered infoHash (sources.startRegister keys tiers) := by
  unfold Sources.startRegister
  dsimp only
  split
  · exact covered.begin (by decide) (by simp)
  rename_i registry reserved
  rcases registerTorrent_single single reserved with ⟨absent, _, present, leads⟩
  have nowhere : sources.registry.torrents.lookup infoHash = none := by
    apply Option.eq_none_iff_forall_ne_some.mpr
    intro entry found
    apply absent
    rw [covered.registered, found]
    rfl
  have made := covered.carry { sources with
    registry := registry, entries := sources.entries ++ [{ keys := keys }], down := false }
    (fun entry held found => by
      rw [getElem?_append_left (List.getElem?_eq_some_iff.mp found).1]
      exact found) rfl rfl
    (fun entry seen => by
      -- Before, nothing could be reached through the registry.
      rcases seen with found | pending
      · rw [nowhere] at found
        cases found
      · exact .inr pending) (fun pending => pending)
  have reservedCover : Covered infoHash { sources with
      registry := registry, entries := sources.entries ++ [{ keys := keys }], down := false } := by
    refine ⟨fun _ _ _ _ => Or.inl present, made.1, made.2, ?_, ?_, covered.primary, covered.stored, ?_, ?_⟩
    · constructor
      · intro _
        rw [leads]
        rfl
      · exact fun _ => present
    · intro entry found
      rw [leads] at found
      cases found
      rw [length_append]
      exact Nat.lt_succ_self _
    · exact fun call member isUnregister => absurd isUnregister (alone call member)
    · nofun
  refine reservedCover.begin (by decide) fun wanted listed => ?_
  rw [mem_append, mem_append] at listed
  rcases listed with (slots | clients) | announcer
  · rcases mem_flatMap.mp slots with ⟨_, _, member⟩
    rcases mem_pair.mp member with rfl | rfl <;> trivial
  · split at clients
    · cases clients
    · exact own_of_clients single clients
  · rw [mem_singleton.mp announcer]
    trivial

theorem Covered.startAddTrackers (single : keys.allShort = [infoHash]) (tiers : List (List String)) :
    Covered infoHash (sources.startAddTrackers keys tiers) := by
  unfold Sources.startAddTrackers
  dsimp only
  split
  · exact covered.begin (by decide) (by simp)
  refine covered.begin (by decide) fun wanted listed => ?_
  rcases mem_append.mp listed with slots | clients
  · rcases mem_map.mp slots with ⟨_, _, rfl⟩
    trivial
  · split at clients
    · cases clients
    split at clients
    · cases clients
    · exact own_of_clients single clients

theorem Covered.startRediscover (keys : TorrentKeys) : Covered infoHash (sources.startRediscover keys) := by
  unfold Sources.startRediscover
  split
  · exact covered.begin (by decide) (by simp)
  split
  · exact covered.begin (by decide) (by simp)
  · exact covered.begin (by decide) (by simp [For])

theorem Covered.startRefresh (keys : TorrentKeys) : Covered infoHash (sources.startRefresh keys) := by
  unfold Sources.startRefresh
  split
  · exact covered.begin (by decide) (by simp)
  split
  · exact covered.begin (by decide) (by simp)
  · exact covered.begin (by decide) (by simp [For])

theorem Covered.startUnregister
    (single : keys.allShort = [infoHash]) : Covered infoHash (sources.startUnregister keys) := by
  have find : sources.registry.find keys = sources.registry.torrents.lookup infoHash := by
    rw [Registry.find, single, findSome?_cons]
    cases sources.registry.torrents.lookup infoHash <;> rfl
  have gone : infoHash ∉ (sources.registry.unregisterTorrent keys).registered := by
    unfold Registry.unregisterTorrent
    rw [single]
    exact Finset.notMem_erase _ _
  have nowhere : (sources.registry.unregisterTorrent keys).torrents.lookup infoHash = none := by
    unfold Registry.unregisterTorrent
    rw [single]
    exact AList.lookup_erase _ _
  unfold Sources.startUnregister
  rw [find, single]
  have own : ∀ wanted ∈ [Section.removeSlots infoHash] ++
      (sources.registry.torrents.lookup infoHash).toList.map closeEntry,
      For infoHash wanted := by
    intro wanted listed
    rcases mem_append.mp listed with slots | entry
    · rw [mem_singleton.mp slots]
      trivial
    · rcases mem_map.mp entry with ⟨_, _, rfl⟩
      trivial
  have made := covered.carry
    (({ sources with registry := sources.registry.unregisterTorrent keys } : Sources).begin
      .unregister ([infoHash].map removeSlots ++
        (sources.registry.torrents.lookup infoHash).toList.map closeEntry))
    (fun _ _ found => found) rfl rfl
    (fun entry seen => by
      rcases seen with found | pending
      · refine .inr (Pending.of_last (mem_append_right _ ?_))
        rw [found]
        exact mem_singleton.mpr rfl
      · exact .inr (pending.append _)) (fun pending => pending.append _)
  refine ⟨?_, made.1, made.2, ?_, ?_, ?_, ?_, ?_, ?_⟩
  · intro key slot _ _
    exact .inr (Pending.of_last (mem_append_left _ (mem_singleton.mpr rfl)))
  · constructor
    · exact fun present => absurd present gone
    intro present
    have found : ((sources.registry.unregisterTorrent keys).torrents.lookup infoHash).isSome =
      true := present
    rw [nowhere] at found
    cases found
  · intro entry present
    have found : (sources.registry.unregisterTorrent keys).torrents.lookup infoHash = some entry := present
    rw [nowhere] at found
    cases found
  · intro primary url pending
    exact pending.of_append.elim (covered.primary primary url) (own (.openClient primary url))
  · intro primary place pending
    exact pending.of_append.elim (covered.stored primary place) (own (.storeClient primary place))
  · exact fun _ _ _ => gone
  · exact fun _ => gone

end

/-! ## Going on with a call -/

theorem old_of_sameBooks {before after : DispatcherInner} (same : Accounted.SameBooks before after)
    (key : TorrentAnnounceKey) (slot : SlotState) (found : after.slots.lookup key = some slot) :
    Exists fun old => before.slots.lookup key = some old := by
  rcases same.found found with ⟨old, isOld, _⟩
  exact ⟨old, isOld⟩

variable {held : TorrentEntry}

theorem modifyEntry_keeps (sources : Sources) (place : Nat) {change : TorrentEntry -> TorrentEntry}
    (keeps : ∀ held, has held -> has (change held))
    (found : sources.entries[entry]? = some held) (isHeld : has held) :
    Exists fun now => (sources.modifyEntry place change).entries[entry]? = some now /\ has now := by
  show Exists fun now => (sources.entries.modify place change)[entry]? = some now /\ has now
  rw [getElem?_modify, found]
  by_cases here : place = entry
  · exact ⟨change held, by simp [here], keeps held isHeld⟩
  · exact ⟨held, by simp [here], isHeld⟩

theorem modifyEntry_elsewhere (sources : Sources) (change : TorrentEntry -> TorrentEntry)
    {held other : TorrentEntry} {holder : Nat} (isHeld : sources.entries[entry]? = some held)
    (hasNot : ¬ has held) (isOther : sources.entries[holder]? = some other) (isHas : has other) :
    (Exists fun now => (sources.modifyEntry entry change).entries[holder]? = some now /\ has now) /\
    entry ≠ holder := by
  have here : entry ≠ holder := by
    intro equal
    rw [<- equal, isHeld] at isOther
    cases isOther
    exact hasNot isHas
  refine ⟨⟨other, ?_, isHas⟩, here⟩
  show (sources.entries.modify entry change)[holder]? = _
  rw [getElem?_modify_ne _ _ here]
  exact isOther

theorem running_of_stopped {announcers : List Bool} {kept : Option Nat} {task : Nat}
    (running : (match kept with
      | none => announcers
      | some stopped => announcers.set stopped false)[task]? = some true) :
    announcers[task]? = some true /\ kept ≠ some task := by
  cases kept with
  | none => exact ⟨running, by simp⟩
  | some stopped =>
    by_cases same : stopped = task
    · rw [same, getElem?_set_self'] at running
      cases there : announcers[task]? <;> rw [there] at running <;> cases running
    · rw [getElem?_set_ne same] at running
      exact ⟨running, fun equal => same (Option.some.inj equal)⟩

theorem closed_of_mem (places : List Nat) :
    ∀ (clients : List TrackerClient) (index : Nat) (client : TrackerClient),
      (places.foldl (fun clients place =>
        clients.modify place (fun c => { c with isOpen := false })) clients)[index]? = some client ->
      client.isOpen = true -> index ∉ places /\ clients[index]? = some client := by
  induction places with
  | nil => exact fun _ _ _ found _ => ⟨not_mem_nil, found⟩
  | cons place places ih =>
    intro clients index client found isOpen
    rcases ih _ index client found isOpen with ⟨absent, before⟩
    rw [getElem?_modify] at before
    rcases Option.map_eq_some_iff.mp before with ⟨_, isOld, same⟩
    by_cases here : place = index
    · rw [if_pos here] at same
      rw [<- same] at isOpen
      cases isOpen
    rw [if_neg here] at same
    rw [<- same]
    refine ⟨?_, isOld⟩
    intro member
    rcases mem_cons.mp member with first | later
    · exact here first.symm
    · exact absent later

section
variable {call : Call} {place : Nat} {next : Section} {rest : List Section}

/-- A section ran and left `changed`; the call goes on with `more`. -/
def goOn (sources changed : Sources) (place : Nat) (call : Call) (more rest : List Section) : Sources :=
  { changed with calls := sources.calls.set place { call with todo := more ++ rest } }

theorem Watched.goOn (found : sources.calls[place]? = some call) (isTodo : call.todo = next :: rest)
    (changed : Sources) (registry : changed.registry = sources.registry)
    (watched : Watched infoHash sources entry) (other : next ≠ .closeEntry entry)
    (more : List Section) : Watched infoHash (goOn sources changed place call more rest) entry := by
  rcases watched with leads | pending
  · refine .inl ?_
    show changed.registry.torrents.lookup infoHash = some entry
    rw [registry]
    exact leads
  · exact .inr (pending.set found isTodo (fun same => other same.symm))

variable {changed : Sources}

theorem Held.goOn (held : Held infoHash sources has) (found : sources.calls[place]? = some call)
    (isTodo : call.todo = next :: rest)
    (registry : changed.registry = sources.registry)
    (kept : ∀ (entry : Nat) holder, sources.entries[entry]? = some holder -> has holder ->
      (Exists fun now => changed.entries[entry]? = some now /\ has now) /\ next ≠ .closeEntry entry)
    (more : List Section) : Held infoHash (goOn sources changed place call more rest) has :=
  held.mono (fun entry holder isHolder isHeld seen =>
    have still := kept entry holder isHolder isHeld
    ⟨still.1, seen.goOn found isTodo changed registry still.2 more⟩)

variable (covered : Covered infoHash sources) (found : sources.calls[place]? = some call)
include covered found

section
variable (isTodo : call.todo = next :: rest)
include isTodo

/-- What is left to show of a section: that its slots, clients and tasks are
covered. -/
theorem Covered.goOn (registry : changed.registry = sources.registry)
    (entries : changed.entries.length = sources.entries.length) (down : changed.down = sources.down)
    (own : ∀ wanted ∈ more, For infoHash wanted)
    (slots : ∀ key slot, changed.dispatcher.slots.lookup key = some slot ->
      key.infoHash = infoHash -> infoHash ∈ sources.registry.registered \/
        Pending (sources.calls.set place { call with todo := more ++ rest }) (.removeSlots infoHash))
    (clients : ∀ index client, changed.clients[index]? = some client -> client.isOpen = true ->
      Held infoHash (goOn sources changed place call more rest) (fun held => index ∈ held.wsClients) \/
        Pending (sources.calls.set place { call with todo := more ++ rest }) (.storeClient infoHash index))
    (announcers : ∀ task, changed.announcers[task]? = some true ->
      Held infoHash (goOn sources changed place call more rest) (fun held => held.dhtAnnouncer = some task) \/
        Exists fun entry => Pending (sources.calls.set place { call with todo := more ++ rest })
          (.storeAnnouncer entry task)) :
    Covered infoHash (goOn sources changed place call more rest) := by
  have member : call ∈ sources.calls := mem_of_getElem? found
  -- A section that is pending afterwards was pending before, or is new.
  have before : ∀ wanted, Pending (sources.calls.set place
      { call with todo := more ++ rest }) wanted -> wanted ∈ more \/
        Pending sources.calls wanted := by
    intro wanted pending
    rcases pending with ⟨holder, isHolder, listed⟩
    rcases mem_or_eq_of_mem_set isHolder with old | new
    · exact .inr ⟨holder, old, listed⟩
    rw [new] at listed
    rcases mem_append.mp listed with isMore | isRest
    · exact .inl isMore
    refine .inr ⟨call, member, ?_⟩
    rw [isTodo]
    exact mem_cons_of_mem _ isRest
  refine ⟨?_, clients, announcers, ?_, ?_, ?_, ?_, ?_, ?_⟩
  · show ∀ key slot, changed.dispatcher.slots.lookup key = some slot ->
      key.infoHash = infoHash -> infoHash ∈ changed.registry.registered \/ _
    rw [registry]
    exact slots
  · show infoHash ∈ changed.registry.registered <-> (changed.registry.torrents.lookup infoHash).isSome = true
    rw [registry]
    exact covered.registered
  · intro entry leads
    have same : sources.registry.torrents.lookup infoHash = some entry := by
      rw [<- registry]
      exact leads
    show entry < changed.entries.length
    rw [entries]
    exact covered.valid entry same
  · intro primary url pending
    exact (before _ pending).elim (own (.openClient primary url)) (covered.primary primary url)
  · intro primary client pending
    exact (before _ pending).elim (own (.storeClient primary client)) (covered.stored primary client)
  · intro holder isHolder isUnregister
    show infoHash ∉ changed.registry.registered
    rw [registry]
    rcases mem_or_eq_of_mem_set isHolder with old | new
    · exact covered.leaving holder old isUnregister
    rw [new] at isUnregister
    exact covered.leaving call member isUnregister
  · intro isDown
    show infoHash ∉ changed.registry.registered
    rw [registry]
    apply covered.down
    rw [<- down]
    exact isDown

theorem Covered.keepSlots
    (other : next ≠ .removeSlots infoHash) (more : List Section) {after : DispatcherInner}
    (old : ∀ key slot, after.slots.lookup key = some slot ->
      Exists fun before => sources.dispatcher.slots.lookup key = some before) :
    ∀ key slot, after.slots.lookup key = some slot -> key.infoHash = infoHash ->
      infoHash ∈ sources.registry.registered \/
        Pending (sources.calls.set place { call with todo := more ++ rest }) (.removeSlots infoHash) := by
  intro key slot isSlot isHash
  rcases old key slot isSlot with ⟨before, isBefore⟩
  exact (covered.slots key before isBefore isHash).imp id (fun pending => pending.set found isTodo other.symm)

theorem Covered.keepClient (registry : changed.registry = sources.registry) {index : Nat}
    (notStore : next ≠ .storeClient infoHash index)
    (kept : ∀ (entry : Nat) held, sources.entries[entry]? = some held ->
      index ∈ held.wsClients -> (Exists fun now => changed.entries[entry]? = some now /\
        index ∈ now.wsClients) /\ next ≠ .closeEntry entry)
    (more : List Section) {client : TrackerClient} (isClient : sources.clients[index]? = some client)
    (isOpen : client.isOpen = true) :
    Held infoHash (Sources.goOn sources changed place call more rest) (fun held => index ∈ held.wsClients) \/
      Pending (sources.calls.set place { call with todo := more ++ rest }) (.storeClient infoHash index) :=
  (covered.clients index client isClient isOpen).imp
    (fun held => Held.goOn held found isTodo registry kept more)
    (fun pending => pending.set found isTodo notStore.symm)

theorem Covered.keepAnnouncer (registry : changed.registry = sources.registry) {task : Nat}
    (notStore : ∀ entry, next ≠ .storeAnnouncer entry task)
    (kept : ∀ (entry : Nat) held, sources.entries[entry]? = some held ->
      held.dhtAnnouncer = some task -> (Exists fun now => changed.entries[entry]? = some now /\
        now.dhtAnnouncer = some task) /\ next ≠ .closeEntry entry)
    (more : List Section) (running : sources.announcers[task]? = some true) :
    Held infoHash (Sources.goOn sources changed place call more rest)
        (fun held => held.dhtAnnouncer = some task) \/
      Exists fun entry => Pending (sources.calls.set place { call with todo := more ++ rest })
        (.storeAnnouncer entry task) :=
  (covered.announcers task running).imp (fun held => Held.goOn held found isTodo registry kept more)
    (fun ⟨entry, pending⟩ => ⟨entry, pending.set found isTodo (notStore entry).symm⟩)

theorem Covered.goOnDispatcher
    {dispatcher : DispatcherInner} (notClose : ∀ entry, next ≠ .closeEntry entry)
    (notClient : ∀ client, next ≠ .storeClient infoHash client)
    (notTask : ∀ entry task, next ≠ .storeAnnouncer entry task)
    (own : ∀ wanted ∈ more, For infoHash wanted)
    (slots : ∀ key slot, dispatcher.slots.lookup key = some slot ->
      key.infoHash = infoHash -> infoHash ∈ sources.registry.registered \/
        Pending (sources.calls.set place { call with todo := more ++ rest })
          (.removeSlots infoHash)) : Covered infoHash
      (Sources.goOn sources { sources with dispatcher := dispatcher } place call more rest) :=
  covered.goOn found isTodo rfl rfl rfl own slots
    (fun index _ => covered.keepClient found isTodo (by rfl) (notClient index)
      (fun entry held isHeld has => ⟨⟨held, isHeld, has⟩, notClose entry⟩) more)
    (fun task => covered.keepAnnouncer found isTodo (by rfl) (fun entry => notTask entry task)
      (fun entry held isHeld has => ⟨⟨held, isHeld, has⟩, notClose entry⟩) more)

/-- A section that neither makes nor clears anything. -/
theorem Covered.idle {dispatcher : DispatcherInner}
    (old : ∀ key slot, dispatcher.slots.lookup key = some slot ->
      Exists fun before => sources.dispatcher.slots.lookup key = some before)
    (quiet : Quiet next) (own : ∀ wanted ∈ more, For infoHash wanted) :
    Covered infoHash (Sources.goOn sources { sources with dispatcher := dispatcher } place call more rest) :=
  covered.goOnDispatcher found isTodo (fun _ => quiet.ne id) (fun _ => quiet.ne id)
    (fun _ _ => quiet.ne id) own (covered.keepSlots found isTodo (quiet.ne id) more old)

end

/-! ### The sections -/

theorem Covered.runAddTrackers {hash : InfoHash} {urls : List String}
    (isTodo : call.todo = .addTrackers hash urls :: rest)
    (inTime : InTime infoHash sources (.addTrackers hash urls)) (now : Nat) :
    Covered infoHash (Sources.goOn sources
      { sources with dispatcher := sources.dispatcher.addTrackers hash urls now }
      place call [] rest) :=
  covered.goOnDispatcher found isTodo (by simp) (by simp) (by simp) (by simp)
    (fun _ _ _ _ => inTime.imp id (fun pending => pending.set found isTodo (by simp)))

theorem Covered.runOpenClient {primary : InfoHash} {url : String}
    (isTodo : call.todo = .openClient primary url :: rest) : Covered infoHash (Sources.goOn sources
      { sources with clients := sources.clients ++ [{ url := url }] }
      place call [.storeClient primary sources.clients.length] rest) := by
  have isPrimary : primary = infoHash := by
    refine covered.primary primary url ⟨call, mem_of_getElem? found, ?_⟩
    rw [isTodo]
    exact mem_cons_self
  refine covered.goOn found isTodo rfl rfl rfl (forall_mem_singleton.mpr isPrimary)
    (covered.keepSlots found isTodo (by simp) _ (fun _ slot isSlot => ⟨slot, isSlot⟩)) ?_
    (fun _ => covered.keepAnnouncer found isTodo (by rfl) (by simp)
      (fun _ held isHeld has => ⟨⟨held, isHeld, has⟩, by simp⟩) _)
  intro index client isClient isOpen
  rcases Nat.lt_or_ge index sources.clients.length with old | _
  · have before : sources.clients[index]? = some client := by
      rw [<- getElem?_append_left old]
      exact isClient
    exact covered.keepClient found isTodo (by rfl) (by simp)
      (fun _ held isHeld has => ⟨⟨held, isHeld, has⟩, by simp⟩) _ before isOpen
  · have last : index = sources.clients.length := by
      have inside := (List.getElem?_eq_some_iff.mp isClient).1
      rw [length_append, length_singleton] at inside
      omega
    rw [last, <- isPrimary]
    exact .inr (Pending.of_more found (mem_singleton.mpr rfl))

theorem Covered.runStoreClient {primary : InfoHash} {index : Nat}
    (isTodo : call.todo = .storeClient primary index :: rest)
    (leads : sources.registry.torrents.lookup primary = some entry) :
    Covered infoHash (Sources.goOn sources
      (sources.modifyEntry entry (fun e => { e with wsClients := e.wsClients ++ [index] }))
      place call [] rest) := by
  have isPrimary : primary = infoHash := by
    refine covered.stored primary index ⟨call, mem_of_getElem? found, ?_⟩
    rw [isTodo]
    exact mem_cons_self
  rw [isPrimary] at leads
  refine covered.goOn found isTodo rfl (length_modify ..) rfl (by simp)
    (covered.keepSlots found isTodo (by simp) _ (fun _ slot isSlot => ⟨slot, isSlot⟩)) ?_
    (fun _ => covered.keepAnnouncer found isTodo (by rfl) (by simp) (fun _ _ isHeld has =>
        ⟨modifyEntry_keeps sources entry (by exact fun _ => id) isHeld has, by simp⟩) _)
  intro other client isClient isOpen
  by_cases same : other = index
  · have inside := covered.valid entry leads
    let held := sources.entries[entry]
    refine .inl ⟨entry, { held with wsClients := held.wsClients ++ [index] }, ?_, ?_, Or.inl leads⟩
    · show (sources.entries.modify entry _)[entry]? = _
      rw [getElem?_modify_eq, getElem?_eq_getElem inside]
      rfl
    · rw [same]
      exact mem_append_right _ (mem_singleton.mpr rfl)
  · refine covered.keepClient found isTodo (by rfl)
      (fun equal => same (storeClient.inj equal).2.symm) ?_ _ isClient isOpen
    intro holder held isHeld member
    exact ⟨modifyEntry_keeps sources entry (fun _ => mem_append_left _) isHeld member, by simp⟩

theorem Covered.runClearAnnouncer (isTodo : call.todo = .clearAnnouncer entry :: rest)
    (isHeld : sources.entries[entry]? = some held) : Covered infoHash (Sources.goOn sources
      { sources.modifyEntry entry (fun e => { e with dhtAnnouncer := none }) with
        announcers := match held.dhtAnnouncer with
          | none => sources.announcers
          | some task => sources.announcers.set task false }
      place call [.spawnAnnouncer entry] rest) := by
  refine covered.goOn found isTodo rfl (length_modify ..) rfl (by simp [For])
    (covered.keepSlots found isTodo (by simp) _ (fun _ slot isSlot => ⟨slot, isSlot⟩))
    (fun _ _ => covered.keepClient found isTodo (by rfl) (by simp) (fun _ _ isHeld has =>
        ⟨modifyEntry_keeps sources entry (by exact fun _ => id) isHeld has, by simp⟩) _)
    ?_
  intro task running
  rcases running_of_stopped running with ⟨before, notHeld⟩
  refine covered.keepAnnouncer found isTodo (by rfl) (by simp) ?_ _ before
  intro holder other isOther isTask
  exact ⟨(modifyEntry_elsewhere sources _ isHeld notHeld isOther isTask).1, by simp⟩

theorem Covered.runSpawnAnnouncer (isTodo : call.todo = .spawnAnnouncer entry :: rest) :
    Covered infoHash (Sources.goOn sources
      { sources with announcers := sources.announcers ++ [true] }
      place call [.storeAnnouncer entry sources.announcers.length] rest) := by
  refine covered.goOn found isTodo rfl rfl rfl (by simp [For])
    (covered.keepSlots found isTodo (by simp) _ (fun _ slot isSlot => ⟨slot, isSlot⟩))
    (fun _ _ => covered.keepClient found isTodo (by rfl) (by simp)
      (fun _ held isHeld has => ⟨⟨held, isHeld, has⟩, by simp⟩) _) ?_
  intro task running
  rcases Nat.lt_or_ge task sources.announcers.length with old | _
  · have before : sources.announcers[task]? = some true := by
      rw [<- getElem?_append_left old]
      exact running
    exact covered.keepAnnouncer found isTodo (by rfl) (by simp)
      (fun _ held isHeld has => ⟨⟨held, isHeld, has⟩, by simp⟩) _ before
  · have last : task = sources.announcers.length := by
      have inside := (List.getElem?_eq_some_iff.mp running).1
      rw [length_append, length_singleton] at inside
      omega
    rw [last]
    exact .inr ⟨entry, Pending.of_more found (mem_singleton.mpr rfl)⟩

theorem Covered.runStoreAnnouncer {task : Nat} (isTodo : call.todo = .storeAnnouncer entry task :: rest)
    (inTime : InTime infoHash sources (.storeAnnouncer entry task)) :
    Covered infoHash (Sources.goOn sources
      (sources.modifyEntry entry (fun e => { e with dhtAnnouncer := some task }))
      place call [] rest) := by
  have free := inTime.1
  cases isHeld : sources.entries[entry]? with
  | none =>
    rw [isHeld] at free
    cases free
  | some kept =>
  rw [isHeld, Option.any_some, Option.isNone_iff_eq_none] at free
  refine covered.goOn found isTodo rfl (length_modify ..) rfl (by simp)
    (covered.keepSlots found isTodo (by simp) _ (fun _ slot isSlot => ⟨slot, isSlot⟩))
    (fun _ _ => covered.keepClient found isTodo (by rfl) (by simp) (fun _ _ isHeld has =>
        ⟨modifyEntry_keeps sources entry (by exact fun _ => id) isHeld has, by simp⟩) _)
    ?_
  intro other running
  by_cases same : other = task
  · refine .inl ⟨entry, { kept with dhtAnnouncer := some task }, ?_, ?_,
      inTime.2.goOn found isTodo _ rfl (by simp) []⟩
    · show (sources.entries.modify entry _)[entry]? = _
      rw [getElem?_modify_eq, isHeld]
      rfl
    · rw [same]
  · refine covered.keepAnnouncer found isTodo (by rfl)
      (fun _ equal => same (storeAnnouncer.inj equal).2.symm) ?_ _ running
    intro holder held isHolder isTask
    exact ⟨(modifyEntry_elsewhere sources _ isHeld (by simp [free]) isHolder isTask).1, by simp⟩

theorem Covered.runRemoveSlots {hash : InfoHash} (isTodo : call.todo = .removeSlots hash :: rest) :
    Covered infoHash (Sources.goOn sources
      { sources with dispatcher := (sources.dispatcher.removeTorrent hash).1 }
      place call [] rest) := by
  refine covered.goOnDispatcher found isTodo (by simp) (by simp) (by simp) (by simp) ?_
  intro key slot isSlot isHash
  have left : (sources.dispatcher.slots.retain (fun key slot =>
      if key.infoHash = hash then none else some slot)).lookup key = some slot := isSlot
  rw [FiniteMap.lookup_retain] at left
  rcases Option.bind_eq_some_iff.mp left with ⟨old, isOld, kept⟩
  rcases Option.ite_none_left_eq_some.mp kept with ⟨other, _⟩
  refine (covered.slots key old isOld isHash).imp id fun pending => ?_
  refine pending.set found isTodo fun same => ?_
  exact other (isHash.trans (removeSlots.inj same))

theorem Covered.runCloseEntry (isTodo : call.todo = .closeEntry entry :: rest)
    (isHeld : sources.entries[entry]? = some held) : Covered infoHash (Sources.goOn sources
      { sources.modifyEntry entry (fun e => { e with wsClients := [], dhtAnnouncer := none }) with
        clients := held.wsClients.foldl (fun clients client =>
          clients.modify client (fun c => { c with isOpen := false })) sources.clients
        announcers := match held.dhtAnnouncer with
          | none => sources.announcers
          | some task => sources.announcers.set task false }
      place call [] rest) := by
  refine covered.goOn found isTodo rfl (length_modify ..) rfl (by simp)
    (covered.keepSlots found isTodo (by simp) _ (fun _ slot isSlot => ⟨slot, isSlot⟩)) ?_ ?_
  · intro index client isClient isOpen
    rcases closed_of_mem held.wsClients sources.clients index client isClient isOpen with
      ⟨absent, before⟩
    refine covered.keepClient found isTodo (by rfl) (by simp) ?_ _ before isOpen
    intro holder other isOther member
    refine (modifyEntry_elsewhere sources _ isHeld absent isOther member).imp id ?_
    exact fun here same => here (closeEntry.inj same)
  · intro task running
    rcases running_of_stopped running with ⟨before, notHeld⟩
    refine covered.keepAnnouncer found isTodo (by rfl) (by simp) ?_ _ before
    intro holder other isOther isTask
    refine (modifyEntry_elsewhere sources _ isHeld notHeld isOther isTask).imp id ?_
    exact fun here same => here (closeEntry.inj same)

/-- Whatever section a call runs, what was made stays covered, if the section
does not come too late. -/
theorem Covered.runSection (isTodo : call.todo = next :: rest)
    (inTime : InTime infoHash sources next) (data : TorrentAnnounceSnapshot) (now : Nat) :
    Covered infoHash (Sources.goOn sources (sources.runSection data now next).1 place call
      (sources.runSection data now next).2 rest) := by
  have same : ∀ key slot, sources.dispatcher.slots.lookup key = some slot ->
      Exists fun before => sources.dispatcher.slots.lookup key = some before :=
    fun _ slot isSlot => ⟨slot, isSlot⟩
  cases next with
  | pushSnapshot =>
    exact covered.idle found isTodo (old_of_sameBooks (Accounted.sameBooks_updateTorrent _ _ _)) trivial
      (by simp [Sources.runSection])
  | addTrackers => exact covered.runAddTrackers found isTodo inTime now
  | announceNow =>
    refine covered.idle found isTodo (old_of_sameBooks (Accounted.sameBooks_mapSlots _ ?_))
      trivial (by simp [Sources.runSection])
    intro key slot
    split <;> exact ⟨rfl, rfl⟩
  | openClient => exact covered.runOpenClient found isTodo
  | storeClient =>
    rcases Option.isSome_iff_exists.mp inTime with ⟨_, leads⟩
    simp only [runSection, leads]
    exact covered.runStoreClient found isTodo leads
  | askAnnouncer | pushIfRegistered =>
    simp only [runSection]
    split
    · exact covered.idle found isTodo same trivial (by simp [For])
    · exact covered.idle found isTodo same trivial (by simp)
  | clearAnnouncer =>
    simp only [runSection]
    split
    · exact covered.idle found isTodo same trivial (by simp)
    rename_i held isHeld
    split
    · exact covered.idle found isTodo same trivial (by simp)
    · exact covered.runClearAnnouncer found isTodo isHeld
  | spawnAnnouncer => exact covered.runSpawnAnnouncer found isTodo
  | storeAnnouncer => exact covered.runStoreAnnouncer found isTodo inTime
  | askPaused =>
    simp only [runSection]
    split
    · exact covered.idle found isTodo same trivial (by simp)
    split
    · exact covered.idle found isTodo same trivial (by simp)
    · exact covered.idle found isTodo same trivial (by simp [For])
  | announceEntry =>
    simp only [runSection]
    split
    · exact covered.idle found isTodo same trivial (by simp)
    split
    · exact covered.idle found isTodo same trivial (by simp)
    refine covered.idle found isTodo same trivial fun wanted listed => ?_
    rcases mem_append.mp listed with hashes | last
    · rcases mem_flatMap.mp hashes with ⟨_, _, isWanted⟩
      rcases mem_pair.mp isWanted with rfl | rfl <;> trivial
    · rw [mem_singleton.mp last]
      trivial
  | removeSlots => exact covered.runRemoveSlots found isTodo
  | closeEntry entry =>
    simp only [runSection]
    split
    · rename_i missing
      have other : ∀ {holder : Nat} {held}, sources.entries[holder]? = some held ->
          closeEntry entry ≠ .closeEntry holder := by
        intro holder held isHeld equal
        rw [closeEntry.inj equal, isHeld] at missing
        cases missing
      exact covered.goOn found isTodo rfl rfl rfl (by simp) (covered.keepSlots found isTodo (by simp) _ same)
        (fun _ _ => covered.keepClient found isTodo (by rfl) (by simp)
          (fun _ held isHeld has => ⟨⟨held, isHeld, has⟩, other isHeld⟩) [])
        (fun _ => covered.keepAnnouncer found isTodo (by rfl) (by simp)
          (fun _ held isHeld has => ⟨⟨held, isHeld, has⟩, other isHeld⟩) [])
    · rename_i held isHeld
      exact covered.runCloseEntry found isTodo isHeld

theorem Covered.returns (done : call.todo = []) : Covered infoHash { sources with
      calls := sources.calls.eraseIdx place
      down := sources.down || call.kind == .unregister } := by
  have made := covered.carry { sources with
    calls := sources.calls.eraseIdx place
    down := sources.down || call.kind == .unregister } (fun _ _ isHeld => isHeld) rfl rfl
    (fun _ seen => seen.imp id (fun pending => pending.eraseIdx found done))
    (fun pending => pending.eraseIdx found done)
  have less : ∀ {wanted : Section}, Pending (sources.calls.eraseIdx place) wanted ->
      Pending sources.calls wanted := by
    intro wanted pending
    rcases pending with ⟨holder, member, listed⟩
    exact ⟨holder, mem_of_mem_eraseIdx member, listed⟩
  refine ⟨?_, made.1, made.2, covered.registered, covered.valid, ?_, ?_, ?_, ?_⟩
  · intro key slot isSlot isHash
    exact (covered.slots key slot isSlot isHash).imp id fun pending => pending.eraseIdx found done
  · exact fun primary url pending => covered.primary primary url (less pending)
  · exact fun primary index pending => covered.stored primary index (less pending)
  · exact fun holder member => covered.leaving holder (mem_of_mem_eraseIdx member)
  · intro isDown
    rcases Bool.or_eq_true_iff.mp isDown with before | left
    · exact covered.down before
    · exact covered.leaving call (mem_of_getElem? found) (by simpa using left)

end

/-! ## Runs -/

theorem Covered.step {after : Sources} {label : Label} (covered : Covered infoHash sources)
    (careful : Careful infoHash sources label)
    (moved : step infoHash sources label = some after) : Covered infoHash after := by
  cases label with
  | register keys tiers =>
    rcases Option.ite_none_right_eq_some.mp moved with ⟨single, ⟨⟩⟩
    exact covered.startRegister single careful tiers
  | addTrackers keys tiers =>
    rcases Option.ite_none_right_eq_some.mp moved with ⟨single, ⟨⟩⟩
    exact covered.startAddTrackers single tiers
  | rediscover keys =>
    rcases Option.ite_none_right_eq_some.mp moved with ⟨_, ⟨⟩⟩
    exact covered.startRediscover keys
  | refresh keys =>
    rcases Option.ite_none_right_eq_some.mp moved with ⟨_, ⟨⟩⟩
    exact covered.startRefresh keys
  | unregister =>
    rcases Option.ite_none_right_eq_some.mp moved with ⟨single, ⟨⟩⟩
    exact covered.startUnregister single
  | run place data now =>
    simp only [Sources.step, Sources.runCall] at moved
    split at moved
    · cases moved
    rename_i call found
    split at moved
    · rename_i done
      cases moved
      exact covered.returns found done
    · rename_i next rest isTodo
      cases moved
      refine covered.runSection found isTodo (careful next ?_) data now
      rw [nextSection, found, Option.bind_some, isTodo]
      rfl

theorem covered_run {labels : List Label}
    (run : (machine infoHash).RunsTo (Careful infoHash) labels sources) : Covered infoHash sources := by
  refine run.stateInvariant (fun first initial => ?_)
    (fun _ _ _ covered careful moved => covered.step careful moved)
  rcases initial with ⟨_, rfl⟩
  have nothing : ∀ wanted, ¬ Pending ([] : List Call) wanted := by
    intro wanted pending
    rcases pending with ⟨_, member, _⟩
    cases member
  refine ⟨?_, ?_, ?_, ?_, ?_, ?_, ?_, ?_, ?_⟩
  · nofun
  · nofun
  · nofun
  · constructor
    · nofun
    · nofun
  · nofun
  · exact fun _ _ pending => absurd pending (nothing _)
  · exact fun _ _ pending => absurd pending (nothing _)
  · nofun
  · nofun

structure Gone (infoHash : InfoHash) (sources : Sources) : Prop where
  slots : ∀ key slot, sources.dispatcher.slots.lookup key = some slot -> key.infoHash ≠ infoHash
  clients : ∀ client ∈ sources.clients, client.isOpen = false
  announcers : ∀ task ∈ sources.announcers, task = false

/-- In every run in which no section comes too late, once an unregistering call
has returned, every other call has returned and none has started since, nothing
is left of the hash. -/
theorem gone_of_careful {labels : List Label}
    (run : (machine infoHash).RunsTo (Careful infoHash) labels sources)
    (returned : sources.down = true) (idle : sources.calls = []) : Gone infoHash sources := by
  have covered := covered_run run
  have absent := covered.down returned
  have nothing : forall wanted, ¬ Pending sources.calls wanted := by
    intro wanted pending
    rcases pending with ⟨_, member, _⟩
    rw [idle] at member
    cases member
  have unwatched : forall entry, ¬ Watched infoHash sources entry := by
    intro entry seen
    rcases seen with leads | pending
    · apply absent
      rw [covered.registered, leads]
      rfl
    · exact nothing _ pending
  refine ⟨?_, ?_, ?_⟩
  · intro key slot found isHash
    rcases covered.slots key slot found isHash with present | pending
    · exact absent present
    · exact nothing _ pending
  · intro client member
    rcases mem_iff_getElem?.mp member with ⟨index, isClient⟩
    cases isOpen : client.isOpen with
    | false => rfl
    | true =>
      rcases covered.clients index client isClient isOpen with ⟨entry, _, _, _, seen⟩ | pending
      · exact absurd seen (unwatched entry)
      · exact absurd pending (nothing _)
  · intro task member
    rcases mem_iff_getElem?.mp member with ⟨index, isTask⟩
    cases task with
    | false => rfl
    | true =>
      rcases covered.announcers index isTask with ⟨entry, _, _, _, seen⟩ | ⟨_, pending⟩
      · exact absurd seen (unwatched entry)
      · exact absurd pending (nothing _)

def exampleKeys : TorrentKeys :=
  { v1 := some exampleHash }

def runs (place count : Nat) : List Label :=
  List.replicate count (.run place exampleSnapshot 0)

def oneAfterTheOther : List Label :=
  [.register exampleKeys [["http://t/a", "wss://t/w"]]] ++ runs 0 9 ++ [.unregister exampleKeys] ++ runs 0 3

theorem gone_oneAfterTheOther :
    let reached := ((machine exampleHash).exec {} oneAfterTheOther).getD {}
    reached.clients.length = 1 ∧ reached.announcers.length = 1 ∧ Gone exampleHash reached := by
  have run : (machine exampleHash).RunsTo (Careful exampleHash)
      oneAfterTheOther (((machine exampleHash).exec {} oneAfterTheOther).getD {}) :=
    .of_exec ⟨{}, rfl⟩ (by decide +kernel) rfl
  exact ⟨by decide +kernel, by decide +kernel, gone_of_careful run (by decide +kernel) (by decide +kernel)⟩

/-- The torrent is unregistered while the registering call has only reserved
the hash. -/
def oneInsideTheOther : List Label :=
  [.register exampleKeys [["http://t/a", "wss://t/w"]], .unregister exampleKeys] ++ runs 1 3 ++ runs 0 9

/-- All calls have returned, and the slot, the client and the task are there. -/
theorem left_after_unregister :
    let reached := ((machine exampleHash).exec {} oneInsideTheOther).getD {}
    (machine exampleHash).RunsTo Machine.always oneInsideTheOther reached ∧
      reached.down = true ∧ reached.calls = [] ∧
      reached.registry.registered = ∅ ∧
      (reached.dispatcher.slots.lookup
        { url := "http://t/a", infoHash := exampleHash }).isSome = true ∧
      reached.clients.map TrackerClient.isOpen = [true] ∧ reached.announcers = [true] := by
  have run : (machine exampleHash).RunsTo Machine.always oneInsideTheOther
      (((machine exampleHash).exec {} oneInsideTheOther).getD {}) :=
    .of_exec ⟨{}, rfl⟩ ((machine exampleHash).permits_always _ _) rfl
  exact ⟨run, by decide +kernel, by decide +kernel, by decide +kernel, by decide +kernel,
    by decide +kernel, by decide +kernel⟩

end Sources
end TorrentPlayer.Discovery
