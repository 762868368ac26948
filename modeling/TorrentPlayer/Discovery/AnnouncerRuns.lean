import TorrentPlayer.Discovery.Announcer

namespace TorrentPlayer.Discovery

open Library DispatcherInner Running FiniteMap Dispatcher List Option

/-!
# The books of the announce dispatcher

A counter per tracker, a flag per slot and an epoch per slot stand for the
announces in progress.  This module shows that they are right after every step
of every run.  The counter is the number of announces of the tracker, the flag
of a slot is set exactly while its one announce runs, and an announce whose
torrent was removed never touches a slot again.

The argument for the last part is that the counter of epochs only grows, so a
slot that is made later has an epoch that no running announce has.
-/

/-- The announce was picked for the slot that is there now. -/
def Running.serves (key : TorrentAnnounceKey) (running : Running) : Bool :=
  decide (running.announce.key = key) && !running.orphaned

def Running.asks (url : String) (running : Running) : Bool :=
  decide (running.announce.key.url = url)

theorem Running.serves_iff (key : TorrentAnnounceKey) (running : Running) :
    running.serves key = true <-> running.announce.key = key /\ running.orphaned = false := by
  rw [serves, Bool.and_eq_true, decide_eq_true_iff, Bool.not_eq_true']

variable {place : Nat}

/-- One announce fewer. -/
theorem countP_eraseIdx {Item : Type} (test : Item -> Bool) {items : List Item} {item : Item}
    (found : items[place]? = some item) :
    (items.eraseIdx place).countP test + (if test item then 1 else 0) = items.countP test := by
  rcases List.getElem?_eq_some_iff.mp found with ⟨inside, same⟩
  have perm := getElem_cons_eraseIdx_perm inside
  rw [<- perm.countP_eq test, countP_cons, same]

/-- The books agree with the announces in progress. -/
structure Accounted (inner : DispatcherInner) (running : List Running) : Prop where
  inflight : ∀ url, inner.inflight url = running.countP (asks url)
  capped : ∀ url, inner.inflight url <= maxConcurrentAnnouncesPerTracker
  active : ∀ key slot, inner.slots.lookup key = some slot ->
    running.countP (serves key) = if slot.active then 1 else 0
  current : ∀ run ∈ running, run.orphaned = false ->
    Exists fun slot => inner.slots.lookup run.announce.key = some slot /\ slot.epoch = run.announce.epoch
  orphans : ∀ run ∈ running, run.orphaned = true ->
    ∀ slot, inner.slots.lookup run.announce.key = some slot -> slot.epoch ≠ run.announce.epoch
  slotEpochs : ∀ key slot, inner.slots.lookup key = some slot -> slot.epoch <= inner.nextEpoch
  epochs : ∀ run ∈ running, run.announce.epoch <= inner.nextEpoch

variable {run : Running}

namespace Accounted

variable {inner : DispatcherInner} {running : List Running}

theorem start : Accounted {} [] where
  inflight := fun _ => rfl
  capped := fun _ => Nat.zero_le _
  active := fun _ _ found => by cases found
  current := fun _ member => by cases member
  orphans := fun _ member => by cases member
  slotEpochs := fun _ _ found => by cases found
  epochs := fun _ member => by cases member

/-- Both states have a slot under the same keys, with the same flag and epoch. -/
def SameBooks (before after : DispatcherInner) : Prop :=
  ∀ key, (after.slots.lookup key).map (fun slot => (slot.active, slot.epoch)) =
    (before.slots.lookup key).map (fun slot => (slot.active, slot.epoch))

variable {after : DispatcherInner}

theorem SameBooks.found {before : DispatcherInner} (same : SameBooks before after)
    {key : TorrentAnnounceKey} {slot : SlotState} (found : after.slots.lookup key = some slot) :
    Exists fun old => before.slots.lookup key = some old /\
    old.active = slot.active /\ old.epoch = slot.epoch := by
  have equal := same key
  rw [found] at equal
  rcases map_eq_some_iff.mp equal.symm with ⟨old, isOld, pair⟩
  exact ⟨old, isOld, congrArg Prod.fst pair, congrArg Prod.snd pair⟩

theorem SameBooks.symm {before : DispatcherInner} (same : SameBooks before after) : SameBooks after before :=
  fun key => (same key).symm

theorem SameBooks.trans {first second third : DispatcherInner} (one : SameBooks first second)
    (two : SameBooks second third) : SameBooks first third :=
  fun key => (two key).trans (one key)

theorem sameBooks_mapSlots (inner : DispatcherInner) {change : TorrentAnnounceKey -> SlotState -> SlotState}
    (keeps : ∀ key slot, (change key slot).active = slot.active /\
      (change key slot).epoch = slot.epoch) : SameBooks inner (inner.mapSlots change) := by
  intro key
  rw [mapSlots, lookup_retain]
  cases inner.slots.lookup key with
  | none => rfl
  | some slot =>
    show some ((change key slot).active, (change key slot).epoch) = some (slot.active, slot.epoch)
    rw [(keeps key slot).1, (keeps key slot).2]

theorem of_sameBooks (books : Accounted inner running) (same : SameBooks inner after)
    (counts : after.urlInflight = inner.urlInflight) (next : inner.nextEpoch <= after.nextEpoch) :
    Accounted after running where
  inflight := fun url => by
    rw [DispatcherInner.inflight, counts]
    exact books.inflight url
  capped := fun url => by
    rw [DispatcherInner.inflight, counts]
    exact books.capped url
  active := fun key slot found => by
    rcases same.found found with ⟨old, isOld, active, _⟩
    rw [books.active key old isOld, active]
  current := fun run member fresh => by
    rcases books.current run member fresh with ⟨slot, found, epoch⟩
    rcases same.symm.found found with ⟨now, isNow, _, sameEpoch⟩
    exact ⟨now, isNow, sameEpoch.trans epoch⟩
  orphans := fun run member orphaned slot found => by
    rcases same.found found with ⟨old, isOld, _, epoch⟩
    rw [<- epoch]
    exact books.orphans run member orphaned old isOld
  slotEpochs := fun key slot found => by
    rcases same.found found with ⟨old, isOld, _, epoch⟩
    rw [<- epoch]
    exact (books.slotEpochs key old isOld).trans next
  epochs := fun run member => (books.epochs run member).trans next

theorem sameBooks_updateTorrent (inner : DispatcherInner) (snap : TorrentAnnounceSnapshot)
    (now : Nat) : SameBooks inner (inner.updateTorrent snap now) := by
  unfold updateTorrent
  dsimp only
  have known : SameBooks inner
      { inner with snapshots := inner.snapshots.insert snap.infoHash snap } := fun _ => rfl
  split
  · refine SameBooks.trans ?_ (sameBooks_mapSlots _ ?_)
    · split
      · refine known.trans (sameBooks_mapSlots _ ?_)
        intro key slot
        split <;> exact ⟨rfl, rfl⟩
      · exact known
    · intro key slot
      split <;> exact ⟨rfl, rfl⟩
  · split
    · refine known.trans (sameBooks_mapSlots _ ?_)
      intro key slot
      split <;> exact ⟨rfl, rfl⟩
    · exact known

theorem updateTorrent_frame (inner : DispatcherInner) (snap : TorrentAnnounceSnapshot) (now : Nat) :
    (inner.updateTorrent snap now).urlInflight = inner.urlInflight /\
    (inner.updateTorrent snap now).nextEpoch = inner.nextEpoch := by
  unfold updateTorrent
  split <;> split <;> exact ⟨rfl, rfl⟩

section
variable (books : Accounted inner running)
include books

theorem updateTorrent (snap : TorrentAnnounceSnapshot)
    (now : Nat) : Accounted (inner.updateTorrent snap now) running :=
  books.of_sameBooks (sameBooks_updateTorrent inner snap now)
    (updateTorrent_frame inner snap now).1 (updateTorrent_frame inner snap now).2.ge

theorem announceNow (infoHash : InfoHash) (now : Nat) :
    Accounted (inner.announceNow infoHash now) running := by
  refine books.of_sameBooks (sameBooks_mapSlots inner ?_) rfl (Nat.le_refl _)
  intro key slot
  split <;> exact ⟨rfl, rfl⟩

theorem withClients (clients : Finset String) : Accounted { inner with clients := clients } running :=
  books.of_sameBooks (fun _ => rfl) rfl (Nat.le_refl _)

/-! ## New and removed slots -/

/-- A slot that is made gets an epoch that no announce has. -/
theorem addTracker (infoHash : InfoHash) (now : Nat)
    (url : String) : Accounted (inner.addTracker infoHash now url) running := by
  unfold DispatcherInner.addTracker
  dsimp only
  cases present : inner.slots.lookup { url := url, infoHash := infoHash } with
  | some slot => exact books.of_sameBooks (fun _ => rfl) rfl (Nat.le_succ _)
  | none =>
    have idle : ∀ run ∈ running,
        run.announce.key = { url := url, infoHash := infoHash } -> run.orphaned = true := by
      intro run member same
      cases fresh : run.orphaned with
      | true => rfl
      | false =>
        rcases books.current run member fresh with ⟨slot, found, _⟩
        rw [same, present] at found
        cases found
    refine ⟨books.inflight, books.capped, ?_, ?_, ?_, ?_, ?_⟩
    · intro key slot found
      rw [lookup_insert_eq] at found
      split at found
      · rename_i same
        cases found
        rw [<- same]
        apply countP_eq_zero.mpr
        intro run member serves
        have both := (run.serves_iff _).mp serves
        rw [idle run member both.1] at both
        cases both.2
      · exact books.active key slot found
    · intro run member fresh
      rcases books.current run member fresh with ⟨slot, found, epoch⟩
      refine ⟨slot, ?_, epoch⟩
      rw [lookup_insert_eq, if_neg ?_]
      · exact found
      · intro same
        rw [<- same, present] at found
        cases found
    · intro run member orphaned slot found
      rw [lookup_insert_eq] at found
      split at found
      · cases found
        have below := books.epochs run member
        dsimp only
        omega
      · exact books.orphans run member orphaned slot found
    · refine forall_lookup_insert (Nat.le_refl _) fun key slot found => ?_
      exact (books.slotEpochs key slot found).trans (Nat.le_succ _)
    · exact fun run member => (books.epochs run member).trans (Nat.le_succ _)

end

theorem addTrackers (infoHash : InfoHash) (now : Nat) (urls : List String) : ∀ {inner : DispatcherInner},
    Accounted inner running -> Accounted (inner.addTrackers infoHash urls now) running := by
  induction urls with
  | nil => exact fun books => books
  | cons url urls ih => exact fun books => ih (books.addTracker infoHash now url)

theorem orphan_announce (infoHash : InfoHash) (run : Running) :
    (orphan infoHash run).announce = run.announce := by
  unfold orphan
  split <;> rfl

theorem removeTorrent (books : Accounted inner running) (infoHash : InfoHash) :
    Accounted (inner.removeTorrent infoHash).1 (running.map (orphan infoHash)) := by
  have left : ∀ key, (inner.removeTorrent infoHash).1.slots.lookup key =
      if key.infoHash = infoHash then none else inner.slots.lookup key := by
    intro key
    show (inner.slots.retain _).lookup key = _
    rw [lookup_retain]
    by_cases removed : key.infoHash = infoHash
    · simp only [if_pos removed, bind_fun_none]
    · simp only [if_neg removed, bind_fun_some]
  have same : ∀ url, (running.map (orphan infoHash)).countP (asks url) = running.countP (asks url) := by
    intro url
    rw [countP_map]
    apply countP_congr
    intro run _
    rw [Function.comp, asks, asks, orphan_announce]
  refine ⟨?_, books.capped, ?_, ?_, ?_, ?_, ?_⟩
  · intro url
    rw [same]
    exact books.inflight url
  · intro key slot found
    rw [left] at found
    split at found
    · cases found
    rename_i other
    rw [<- books.active key slot found, countP_map]
    apply countP_congr
    intro run _
    rw [Function.comp, serves_iff, serves_iff]
    unfold orphan
    split
    · rename_i removed
      constructor
      · exact fun both => absurd both.2 (by simp)
      intro both
      rw [both.1] at removed
      exact absurd removed other
    · exact Iff.rfl
  · intro run member fresh
    rcases mem_map.mp member with ⟨old, isOld, rfl⟩
    rw [orphan_announce, left]
    unfold orphan at fresh
    split at fresh
    · cases fresh
    rename_i other
    rw [if_neg other]
    exact books.current old isOld fresh
  · intro run member orphaned slot found
    rcases mem_map.mp member with ⟨old, isOld, rfl⟩
    rw [orphan_announce, left] at found
    rw [orphan_announce]
    split at found
    · cases found
    rename_i other
    unfold orphan at orphaned
    rw [if_neg other] at orphaned
    exact books.orphans old isOld orphaned slot found
  · intro key slot found
    rw [left] at found
    split at found
    · cases found
    · exact books.slotEpochs key slot found
  · intro run member
    rcases mem_map.mp member with ⟨old, isOld, rfl⟩
    rw [orphan_announce]
    exact books.epochs old isOld

/-! ## Picking and reporting -/

theorem pick (books : Accounted inner running) {key : TorrentAnnounceKey} {slot : SlotState}
    (found : inner.slots.lookup key = some slot) (idle : slot.active = false)
    (room : inner.inflight key.url < maxConcurrentAnnouncesPerTracker)
    {announce : Announce} (isKey : announce.key = key) (isEpoch : announce.epoch = slot.epoch) :
    Accounted { inner with
        slots := inner.slots.insert key { slot with active := true }
        urlInflight := inner.urlInflight.insert key.url (inner.inflight key.url + 1) }
      (running ++ [{ announce := announce }]) := by
  have counted : ∀ url,
      ((inner.urlInflight.insert key.url (inner.inflight key.url + 1)).lookup url).getD 0 =
        inner.inflight url + if key.url = url then 1 else 0 := by
    intro url
    rw [lookup_insert_eq]
    split
    · rename_i same
      rw [<- same]
      rfl
    · rfl
  refine ⟨?_, ?_, ?_, ?_, ?_, ?_, ?_⟩
  · intro url
    rw [DispatcherInner.inflight, counted, books.inflight, countP_append,
      countP_singleton, Running.asks, isKey]
    simp only [decide_eq_true_eq]
  · intro url
    rw [DispatcherInner.inflight, counted]
    split
    · rename_i same
      rw [<- same]
      exact room
    · exact books.capped url
  · intro other state isState
    rw [lookup_insert_eq] at isState
    rw [countP_append, countP_singleton, serves, isKey]
    split at isState
    · rename_i same
      cases isState
      rw [<- same, books.active key slot found, idle]
      simp
    · rename_i different
      rw [books.active other state isState]
      simp [different]
  · intro run member fresh
    rcases mem_append.mp member with old | new
    · rcases books.current run old fresh with ⟨state, isState, epoch⟩
      rw [lookup_insert_eq]
      split
      · rename_i same
        rw [<- same, found] at isState
        cases isState
        exact ⟨_, rfl, epoch⟩
      · exact ⟨state, isState, epoch⟩
    · rw [mem_singleton.mp new]
      refine ⟨{ slot with active := true }, ?_, isEpoch.symm⟩
      rw [lookup_insert_eq, isKey, if_pos rfl]
  · intro run member orphaned state isState
    rcases mem_append.mp member with old | new
    · rw [lookup_insert_eq] at isState
      split at isState
      · rename_i same
        cases isState
        exact books.orphans run old orphaned slot (by rw [<- same]; exact found)
      · exact books.orphans run old orphaned state isState
    · rw [mem_singleton.mp new] at orphaned
      cases orphaned
  · exact forall_lookup_insert (books.slotEpochs key slot found) books.slotEpochs
  · refine forall_mem_append.mpr ⟨books.epochs, forall_mem_singleton.mpr ?_⟩
    rw [isEpoch]
    exact books.slotEpochs key slot found

theorem dispatchKey {picked : List Announce}
    (books : Accounted inner (running ++ picked.map (fun announce => { announce := announce })))
    (key : TorrentAnnounceKey) : Accounted (dispatchKey (inner, picked) key).1
      (running ++ (dispatchKey (inner, picked) key).2.map (fun announce => { announce := announce })) := by
  unfold DispatcherInner.dispatchKey
  dsimp only
  split
  · exact books
  rename_i room
  split
  · exact books
  rename_i slot found
  split
  · exact books
  rename_i idle
  split
  · exact books
  rw [map_append, <- append_assoc]
  exact books.pick found (Bool.eq_false_iff.mpr idle) (Nat.lt_of_not_le room) rfl rfl

/-- One pass of the loop, candidate by candidate. -/
theorem dispatchKeys (keys : List TorrentAnnounceKey) :
    ∀ {inner : DispatcherInner} {picked : List Announce},
      Accounted inner (running ++ picked.map (fun announce => { announce := announce })) ->
      Accounted (keys.foldl DispatcherInner.dispatchKey (inner, picked)).1
        (running ++ (keys.foldl DispatcherInner.dispatchKey (inner, picked)).2.map
          (fun announce => { announce := announce })) := by
  induction keys with
  | nil => exact fun books => books
  | cons key keys ih => exact fun books => ih (books.dispatchKey key)

theorem dispatchOnce (books : Accounted inner running) (order : List TorrentAnnounceKey)
    (now : Nat) : Accounted (inner.dispatchOnce order now).1
      (running ++ (inner.dispatchOnce order now).2.map (fun announce => { announce := announce })) := by
  apply dispatchKeys
  rw [map_nil, append_nil]
  exact books

/-- The counter after a report. -/
theorem inflight_release (books : Accounted inner running) (found : running[place]? = some run)
    (url : String) : (inner.release run.announce.key.url).inflight url =
    (running.eraseIdx place).countP (asks url) := by
  have fewer := countP_eraseIdx (asks url) found
  have whole := books.inflight url
  have some_ := books.inflight run.announce.key.url
  have busy := countP_eraseIdx (asks run.announce.key.url) found
  rw [asks, decide_eq_true rfl, if_pos rfl] at busy
  unfold release
  cases present : inner.urlInflight.lookup run.announce.key.url with
  | none =>
    rw [DispatcherInner.inflight, present, getD_none] at some_
    omega
  | some =>
    rw [DispatcherInner.inflight, present, getD_some] at some_
    show ((inner.urlInflight.insert _ _).lookup url).getD 0 = _
    rw [FiniteMap.lookup_insert_eq]
    by_cases same : run.announce.key.url = url
    · rw [if_pos same, getD_some]
      rw [<- same] at fewer ⊢
      omega
    · rw [if_neg same]
      rw [asks, decide_eq_false same, if_neg Bool.false_ne_true] at fewer
      rw [DispatcherInner.inflight] at whole
      omega

theorem release_slots (inner : DispatcherInner) (url : String) :
    (inner.release url).slots = inner.slots /\ (inner.release url).nextEpoch = inner.nextEpoch := by
  unfold release
  split <;> exact ⟨rfl, rfl⟩

section
variable (books : Accounted inner running)
include books

/-- A report of an announce whose torrent was removed changes no slot. -/
theorem finishAnnounce_orphaned (member : run ∈ running)
    (orphaned : run.orphaned = true) (result : Except String AnnounceResponse) (now : Nat) :
    (inner.finishAnnounce run.announce.key run.announce.event run.announce.epoch result now).1 =
    inner.release run.announce.key.url := by
  unfold finishAnnounce
  dsimp only
  rw [(release_slots inner _).1]
  split
  · rfl
  rename_i slot found
  rw [if_pos (books.orphans run member orphaned slot found)]

theorem finishAnnounce_current (member : run ∈ running)
    (current : run.orphaned = false) (result : Except String AnnounceResponse) (now : Nat) :
    Exists fun slot => Exists fun freed : SlotState =>
      inner.slots.lookup run.announce.key = some slot /\ freed.active = false /\
      freed.epoch = slot.epoch /\ slot.epoch = run.announce.epoch /\
      (inner.finishAnnounce run.announce.key run.announce.event run.announce.epoch result
        now).1 = { inner.release run.announce.key.url with
          slots := inner.slots.insert run.announce.key freed } := by
  rcases books.current run member current with ⟨slot, found, epoch⟩
  unfold finishAnnounce
  dsimp only
  rw [(release_slots inner _).1, found]
  dsimp only
  rw [if_neg (fun different => different epoch)]
  cases result with
  | ok response =>
    exact ⟨slot, succeeded slot run.announce.event response
      (((inner.release run.announce.key.url).snapshots.lookup run.announce.key.infoHash).map
        (·.wantPeers) |>.getD false) now, rfl, rfl, rfl, epoch, rfl⟩
  | error => exact ⟨slot, failed slot run.announce.event now, rfl, rfl, rfl, epoch, rfl⟩

theorem release_capped (url other : String) :
    (inner.release url).inflight other <= maxConcurrentAnnouncesPerTracker := by
  have before := books.capped other
  unfold release
  split
  · exact before
  rename_i count present
  show ((inner.urlInflight.insert url (count - 1)).lookup other).getD 0 <= _
  rw [lookup_insert_eq]
  split
  · rename_i same
    rw [<- same, DispatcherInner.inflight, present, getD_some] at before
    rw [getD_some]
    omega
  · exact before

theorem report (found : running[place]? = some run) (result : Except String AnnounceResponse) (now : Nat) :
    Accounted (inner.finishAnnounce run.announce.key run.announce.event run.announce.epoch
      result now).1 (running.eraseIdx place) := by
  have member := mem_of_getElem? found
  have less : ∀ other ∈ running.eraseIdx place, other ∈ running :=
    fun other => mem_of_mem_eraseIdx
  have kept := release_slots inner run.announce.key.url
  cases orphaned : run.orphaned with
  | true =>
    rw [books.finishAnnounce_orphaned member orphaned]
    have served : ∀ key, (running.eraseIdx place).countP (serves key) = running.countP (serves key) := by
      intro key
      have fewer := countP_eraseIdx (serves key) found
      rw [serves, orphaned, Bool.not_true, Bool.and_false] at fewer
      exact fewer
    refine ⟨books.inflight_release found, books.release_capped _, ?_, ?_, ?_, ?_, ?_⟩
    · intro key slot isSlot
      rw [kept.1] at isSlot
      rw [served]
      exact books.active key slot isSlot
    · rw [kept.1]
      exact fun other isOther => books.current other (less other isOther)
    · rw [kept.1]
      exact fun other isOther => books.orphans other (less other isOther)
    · rw [kept.1, kept.2]
      exact books.slotEpochs
    · rw [kept.2]
      exact fun other isOther => books.epochs other (less other isOther)
  | false =>
    rcases books.finishAnnounce_current member orphaned result now with
      ⟨slot, freed, isSlot, idle, sameEpoch, epoch, after⟩
    rw [after]
    refine ⟨books.inflight_release found, books.release_capped _, ?_, ?_, ?_, ?_, ?_⟩
    · intro key state isState
      rw [lookup_insert_eq] at isState
      have fewer := countP_eraseIdx (serves key) found
      split at isState
      · rename_i same
        cases isState
        have before := books.active _ slot isSlot
        have serves : run.serves key = true := (run.serves_iff key).mpr ⟨same, orphaned⟩
        rw [serves, if_pos rfl, <- same, before] at fewer
        rw [idle, <- same, if_neg Bool.false_ne_true]
        split at fewer <;> omega
      · rename_i different
        have serves : run.serves key = false := by rw [serves, decide_eq_false different, Bool.false_and]
        rw [serves] at fewer
        rw [<- books.active key state isState]
        exact fewer
    · intro other isOther fresh
      rcases books.current other (less other isOther) fresh with ⟨state, isState, hasEpoch⟩
      rw [lookup_insert_eq]
      split
      · rename_i same
        rw [<- same, isSlot] at isState
        cases isState
        exact ⟨freed, rfl, sameEpoch.trans hasEpoch⟩
      · exact ⟨state, isState, hasEpoch⟩
    · intro other isOther isOrphaned state isState
      rw [lookup_insert_eq] at isState
      split at isState
      · rename_i same
        cases isState
        rw [sameEpoch]
        exact books.orphans other (less other isOther) isOrphaned slot (by rw [<- same]; exact isSlot)
      · exact books.orphans other (less other isOther) isOrphaned state isState
    · rw [kept.2]
      refine forall_lookup_insert ?_ books.slotEpochs
      rw [sameEpoch]
      exact books.slotEpochs _ slot isSlot
    · intro other isOther
      rw [kept.2]
      exact books.epochs other (less other isOther)

end
end Accounted

/-! ## Runs -/

namespace Dispatcher

variable {dispatcher : Dispatcher}

theorem accounted_setStage {inner : DispatcherInner} (books : Accounted inner dispatcher.running)
    (found : dispatcher.running[place]? = some run) (stage : Stage) :
    Accounted inner (dispatcher.running.set place { run with stage := stage }) := by
  have count : ∀ test : Running -> Bool, test { run with stage := stage } = test run ->
      (dispatcher.running.set place { run with stage := stage }).countP test =
        dispatcher.running.countP test := by
    intro test same
    rcases List.getElem?_eq_some_iff.mp found with ⟨inside, isRun⟩
    have present : test run = true -> 0 < dispatcher.running.countP test := fun yes =>
      countP_pos_iff.mpr ⟨run, mem_of_getElem? found, yes⟩
    rw [countP_set inside, isRun, same]
    split
    · rename_i yes
      have positive := present yes
      omega
    · omega
  have old : ∀ other, other ∈ dispatcher.running.set place { run with stage := stage } ->
      Exists fun before => before ∈ dispatcher.running /\ before.announce = other.announce /\
        before.orphaned = other.orphaned := by
    intro other member
    rcases mem_or_eq_of_mem_set member with same | new
    · exact ⟨other, same, rfl, rfl⟩
    · exact ⟨run, mem_of_getElem? found, by rw [new], by rw [new]⟩
  refine ⟨?_, books.capped, ?_, ?_, ?_, books.slotEpochs, ?_⟩
  · intro url
    rw [count _ rfl]
    exact books.inflight url
  · intro key slot isSlot
    rw [count _ rfl]
    exact books.active key slot isSlot
  · intro other member fresh
    rcases old other member with ⟨before, isBefore, announce, orphaned⟩
    rw [<- announce]
    exact books.current before isBefore (orphaned.trans fresh)
  · intro other member isOrphaned
    rcases old other member with ⟨before, isBefore, announce, orphaned⟩
    rw [<- announce]
    exact books.orphans before isBefore (orphaned.trans isOrphaned)
  · intro other member
    rcases old other member with ⟨before, isBefore, announce, _⟩
    rw [<- announce]
    exact books.epochs before isBefore

theorem accounted_step {after : Dispatcher} {label : Label}
    (books : Accounted dispatcher.inner dispatcher.running)
    (taken : dispatcher.step label = some after) : Accounted after.inner after.running := by
  cases label with
  | addTrackers infoHash urls now =>
    cases taken
    exact books.addTrackers infoHash now urls
  | updateTorrent snap now =>
    cases taken
    exact books.updateTorrent snap now
  | announceNow infoHash now =>
    cases taken
    exact books.announceNow infoHash now
  | removeTorrent infoHash =>
    cases taken
    exact books.removeTorrent infoHash
  | resetClients =>
    cases taken
    exact books.withClients ∅
  | dispatch order now =>
    simp only [step] at taken
    split at taken
    · cases taken
      exact books.dispatchOnce order now
    · cases taken
  | lookupClient =>
    simp only [step] at taken
    split at taken
    · cases taken
    rename_i run found
    split at taken
    · cases taken
    split at taken <;> cases taken
    · exact accounted_setStage books found _
    · exact accounted_setStage books found _
  | connect place error now =>
    simp only [step] at taken
    split at taken
    · cases taken
    rename_i run found
    split at taken
    · cases taken
    cases error with
    | none =>
      cases taken
      exact accounted_setStage (books.withClients _) found _
    | some message =>
      cases taken
      exact books.report found (.error message) now
  | finish place result now =>
    simp only [step] at taken
    split at taken
    · cases taken
    rename_i run found
    split at taken
    · cases taken
    cases taken
    exact books.report found result now

theorem accounted_run {labels : List Label} (run : machine.RunsTo Machine.always labels dispatcher) :
    Accounted dispatcher.inner dispatcher.running :=
  run.stateInvariant (motive := fun dispatcher => Accounted dispatcher.inner dispatcher.running)
    (fun _ initial => by rw [initial]; exact Accounted.start)
    (fun _ _ _ books _ taken => accounted_step books taken)

def Label.Reports (place : Nat) : Label -> Prop
  | .connect other (some _) _ | .finish other _ _ => other = place
  | .connect _ none _ | .addTrackers _ _ _ | .updateTorrent _ _ | .announceNow _ _
  | .removeTorrent _ | .resetClients | .dispatch _ _ | .lookupClient _ => False

theorem step_of_reports {after : Dispatcher} {label : Label} (found : dispatcher.running[place]? = some run)
    (reports : label.Reports place) (taken : dispatcher.step label = some after) :
    Exists fun result => Exists fun now => after = dispatcher.report place run.announce result now := by
  cases label with
  | connect other error =>
    cases error with
    | none => cases reports
    | some =>
      cases (show other = place from reports)
      simp only [step, found] at taken
      split at taken
      · cases taken
      · exact ⟨_, _, (Option.some.inj taken).symm⟩
  | finish other =>
    cases (show other = place from reports)
    simp only [step, found] at taken
    split at taken
    · cases taken
    · exact ⟨_, _, (Option.some.inj taken).symm⟩
  | addTrackers infoHash urls now | updateTorrent snap now | announceNow infoHash now
  | removeTorrent | resetClients | dispatch | lookupClient => cases reports

/-- After every step the counter of a tracker is the number of its announces in
progress and at most two; a slot has at most one announce in progress and is
marked active exactly while it has one; and the report of an announce whose
torrent was removed changes no slot. -/
theorem books_match_announces {labels : List Label} {dispatcher : Dispatcher}
    (run : machine.RunsTo Machine.always labels dispatcher) :
    (forall url, dispatcher.inner.inflight url = dispatcher.running.countP (asks url) ∧
      dispatcher.inner.inflight url <= 2) ∧
    (forall key slot, dispatcher.inner.slots.lookup key = some slot ->
      dispatcher.running.countP (serves key) <= 1 ∧
        (slot.active = true <-> 0 < dispatcher.running.countP (serves key))) ∧
    (forall place announce label after, dispatcher.running[place]? = some announce ->
      announce.orphaned = true -> label.Reports place ->
      dispatcher.step label = some after -> after.inner.slots = dispatcher.inner.slots) := by
  have books := accounted_run run
  refine ⟨fun url => ⟨books.inflight url, books.capped url⟩, ?_, ?_⟩
  · intro key slot found
    rw [books.active key slot found]
    cases slot.active <;> simp
  · intro place announce label after found orphaned reports taken
    rcases step_of_reports found reports taken with ⟨result, now, same⟩
    rw [same]
    show (dispatcher.inner.finishAnnounce _ _ _ _ _).1.slots = _
    rw [books.finishAnnounce_orphaned (mem_of_getElem? found) orphaned]
    exact (Accounted.release_slots _ _).1

def exampleHash : InfoHash :=
  Vector.replicate 20 1

def exampleSnapshot : TorrentAnnounceSnapshot :=
  { infoHash := exampleHash, peerId := Vector.replicate 20 2, downloaded := 0, left := 1000
    uploaded := 0, port := 6881, key := 1, needData := true, wantPeers := false
    completed := false, newlyCompleted := false }

def removedAndAdded : List Label :=
  let key : TorrentAnnounceKey := { url := "http://t/a", infoHash := exampleHash }
  [.updateTorrent exampleSnapshot 0, .addTrackers exampleHash ["http://t/a"] 0,
   .dispatch [key] 0, .removeTorrent exampleHash, .updateTorrent exampleSnapshot 1,
   .addTrackers exampleHash ["http://t/a"] 1, .dispatch [key] 1, .lookupClient 0]

theorem books_match_removedAndAdded : let reached := (machine.exec {} removedAndAdded).getD {}
    reached.running.map orphaned = [true, false] ∧
      reached.inner.inflight "http://t/a" = reached.running.countP (asks "http://t/a") ∧
      reached.inner.inflight "http://t/a" <= 2 := by
  have run : machine.RunsTo Machine.always removedAndAdded ((machine.exec {} removedAndAdded).getD {}) :=
    .of_exec rfl (machine.permits_always _ _) rfl
  exact ⟨by decide +kernel, (books_match_announces run).1 "http://t/a"⟩

end Dispatcher
end TorrentPlayer.Discovery
