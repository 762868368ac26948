import TorrentPlayer.Discovery.Client

namespace TorrentPlayer.Discovery

open Library TorrentKeys FiniteMap List

/-!
# Aliases and registered hashes

A merge adds the hashes of a specification to the map of short hashes and then
registers those it takes for new.  It decides that from the torrent's own
hashes and not from the map, and the sources refuse all keys of a registration
if they know one of them.  So a hash can become an alias without being
registered: when it comes together with an alias that was merged before, and
when it is a second v2 hash.

In runs without such a merge the two maps and the sources stay in step.
-/

theorem mem_foldl_insert (hashes : List InfoHash) (hash : InfoHash) : ∀ set : Finset InfoHash, hash ∈
    hashes.foldl (fun set hash => insert hash set) set <-> hash ∈ set \/ hash ∈ hashes := by
  induction hashes with
  | nil => simp
  | cons first rest ih =>
    intro set
    rw [foldl_cons, ih, Finset.mem_insert, mem_cons]
    constructor
    · rintro ((same | old) | later)
      · exact .inr (Or.inl same)
      · exact .inl old
      · exact .inr (Or.inr later)
    · rintro (old | same | later)
      · exact .inl (Or.inr old)
      · exact .inl (Or.inl same)
      · exact .inr later

theorem lookup_foldl_insert (place : Nat) (hash : InfoHash) (hashes : List InfoHash) :
    ∀ map : FiniteMap InfoHash Nat,
    (hashes.foldl (fun map hash => AList.insert hash place map) map).lookup hash =
      if hash ∈ hashes then some place else map.lookup hash := by
  induction hashes with
  | nil => simp
  | cons first rest ih =>
    intro map
    rw [foldl_cons, ih, lookup_insert_eq]
    by_cases later : hash ∈ rest
    · rw [if_pos later, if_pos (mem_cons_of_mem _ later)]
    rw [if_neg later]
    by_cases same : first = hash
    · rw [if_pos same, if_pos (by rw [same]; exact mem_cons_self)]
    rw [if_neg same, if_neg]
    intro member
    rcases mem_cons.mp member with isFirst | isLater
    · exact same isFirst.symm
    · exact later isLater

theorem mem_allShort (keys : TorrentKeys) (hash : InfoHash) :
    hash ∈ keys.allShort <-> keys.v1 = some hash \/ keys.v2Short = some hash := by
  unfold allShort
  split
  · rename_i v1 v2
    rw [v1, v2]
    simp
  · rename_i first v1 v2
    rw [v1, v2]
    simp [eq_comm]
  · rename_i second v1 v2
    rw [v1, v2]
    simp [eq_comm]
  · rename_i first second v1 v2
    rw [v1, v2]
    split
    · rename_i same
      rw [same]
      simp [eq_comm]
    · simp [eq_comm]

/-! ## The registry -/

variable {registry : Registry} {keys : TorrentKeys} {hash : InfoHash}

namespace Registry

/-- A registration is accepted if no key is known, and refused as a whole otherwise. -/
theorem registerTorrent_cases (open_ : registry.closed = false) (keys : TorrentKeys) (entry : Nat) :
    ((Exists fun error => registry.registerTorrent keys entry = .error error) /\
      ∀ hash ∈ keys.allShort, Exists fun known => known ∈ keys.allShort /\ known ∈ registry.registered) \/
    Exists fun after => registry.registerTorrent keys entry = .ok after /\ after.closed = false /\
    (∀ hash ∈ keys.allShort, hash ∉ registry.registered) /\
    ∀ hash, hash ∈ after.registered <-> hash ∈ registry.registered \/ hash ∈ keys.allShort := by
  unfold registerTorrent
  rw [open_, if_neg Bool.false_ne_true]
  split
  · rename_i empty
    refine .inl ⟨⟨_, rfl⟩, fun hash listed => ?_⟩
    rw [isEmpty_iff.mp empty] at listed
    cases listed
  split
  · rename_i known found
    have isKnown := find?_some found
    exact .inl ⟨⟨_, rfl⟩, fun _ _ => ⟨known, mem_of_find?_eq_some found, of_decide_eq_true isKnown⟩⟩
  · rename_i free
    refine .inr ⟨_, rfl, rfl, ?_, fun hash => mem_foldl_insert _ hash _⟩
    intro hash listed known
    exact find?_eq_none.mp free hash listed (decide_eq_true known)

theorem unregisterTorrent_one (registry : Registry) (hash other : InfoHash) :
    other ∈ (registry.unregisterTorrent { v1 := some hash }).registered <->
      other ∈ registry.registered /\ other ≠ hash := by
  show other ∈ registry.registered.erase hash <-> _
  rw [Finset.mem_erase]
  exact And.comm

theorem unregister_all (hashes : List InfoHash) (other : InfoHash) : ∀ registry : Registry,
      (other ∈ (hashes.foldl (fun registry hash =>
        registry.unregisterTorrent { v1 := some hash }) registry).registered <->
          other ∈ registry.registered /\ other ∉ hashes) /\ (hashes.foldl (fun registry hash =>
        registry.unregisterTorrent { v1 := some hash }) registry).closed = registry.closed := by
  induction hashes with
  | nil => exact fun registry => ⟨by simp, rfl⟩
  | cons hash rest ih =>
    intro registry
    rw [foldl_cons]
    refine ⟨?_, (ih _).2⟩
    rw [(ih _).1, unregisterTorrent_one, mem_cons, not_or]
    constructor
    · rintro ⟨⟨known, different⟩, absent⟩
      exact ⟨known, different, absent⟩
    · rintro ⟨known, different, absent⟩
      exact ⟨⟨known, different⟩, absent⟩

end Registry

namespace Client

variable {client : Client}

/-- The two maps and the sources agree. -/
structure Consistent (client : Client) : Prop where
  live : ∀ hash place, client.torrentsByShort.lookup hash = some place ->
    place < client.all.length /\ place ∉ client.detached
  own : ∀ hash place torrent, client.torrents.lookup hash = some place ->
    client.all[place]? = some torrent -> torrent.infoHash = hash /\
      ∀ short ∈ (torrentKeysFor torrent).allShort, client.torrentsByShort.lookup short = some place
  valid : ∀ hash place, client.torrents.lookup hash = some place -> place < client.all.length
  registered : ∀ hash, hash ∈ client.registered <-> (client.torrentsByShort.lookup hash).isSome = true

def Running (client : Client) : Prop :=
  client.closed = false -> Exists fun registry => client.sources = some registry /\ registry.closed = false

/-- A merge into the torrent registers what it brings.  It brings no hash that leads nowhere yet;
or its v1 hash, if it leads somewhere, is the torrent's own, and so is its v2 hash, if the torrent
has none, and a v2 hash that leads nowhere is the first one of the torrent or its v1 hash, too. -/
def RegistersNew (client : Client) (torrent : ClientTorrent) (spec : TorrentSpec) : Prop :=
  (∀ hash ∈ (fromSpec spec).allShort, hash ∈ client.torrentsByShort) ∨
    (∀ v1 ∈ spec.infoHash, v1 ∈ client.torrentsByShort -> v1 = torrent.infoHash) /\
    ∀ v2 ∈ spec.infoHashV2, if v2.toShort ∈ client.torrentsByShort then
      torrent.infoHashV2.isSome = true ∨ v2.toShort = torrent.infoHash
    else torrent.infoHashV2 = none ∨ spec.infoHash = some v2.toShort

/-- Every specification registers what it brings to the torrents its hashes lead to. -/
def Registers (sha1 : List UInt8 -> InfoHash) (client : Client) : Label -> Prop
  | .add spec _ => ∀ hash ∈ (fromSpec (withInfo sha1 spec).1).allShort,
    ∀ place ∈ client.torrentsByShort.lookup hash, ∀ torrent ∈ client.all[place]?,
      client.RegistersNew torrent (withInfo sha1 spec).1
  | .detach _ | .close => True

variable {torrent merged : ClientTorrent} {spec : TorrentSpec} {place : Nat} {infoHash : InfoHash}
variable {sha1 : List UInt8 -> InfoHash} {info : Option Meta.Info}

theorem mergeSpec_hashes {storageError : Option String}
    (merges : mergeSpec torrent spec info storageError = .ok merged) :
    merged.infoHash = torrent.infoHash /\ merged.infoHashV2 = torrent.infoHashV2 := by
  unfold mergeSpec at merges
  dsimp only at merges
  split at merges
  · cases merges
  rename_i opened isOpened
  have same : opened.infoHash = torrent.infoHash /\ opened.infoHashV2 = torrent.infoHashV2 := by
    split at isOpened
    · cases isOpened
      exact ⟨rfl, rfl⟩
    split at isOpened
    · cases isOpened
      exact ⟨rfl, rfl⟩
    split at isOpened
    · cases isOpened
    cases isOpened
    exact ⟨rfl, rfl⟩
  cases merges
  exact same

theorem addTorrentSpec_cases (sha1 : List UInt8 -> InfoHash) (client : Client)
    (spec : TorrentSpec) (storageError : Option String) :
    (Exists fun error => client.addTorrentSpec sha1 spec storageError = (.error error, client)) \/
    Exists fun infoHash => client.closed = false /\ mainHash (withInfo sha1 spec).1 = some infoHash /\
      ((Exists fun place => Exists fun torrent => Exists fun merged =>
        client.existing infoHash (withInfo sha1 spec).1 = some place /\
        client.conflicts place (withInfo sha1 spec).1 = false /\ client.all[place]? = some torrent /\
        merged.infoHash = torrent.infoHash /\ merged.infoHashV2 = torrent.infoHashV2 /\
        client.addTorrentSpec sha1 spec storageError =
          (.ok (place, false), client.merge place torrent merged (withInfo sha1 spec).1)) \/
      client.existing infoHash (withInfo sha1 spec).1 = none /\
        client.addTorrentSpec sha1 spec storageError = (.ok (client.all.length, true),
          client.insertNew (newTorrent infoHash (withInfo sha1 spec).1 (withInfo sha1 spec).2))) := by
  unfold addTorrentSpec
  by_cases shut : client.closed = true
  · rw [if_pos shut]
    exact .inl ⟨_, rfl⟩
  rw [if_neg shut]
  dsimp only
  cases main : mainHash (withInfo sha1 spec).1 with
  | none => exact .inl ⟨_, rfl⟩
  | some infoHash =>
    dsimp only
    cases there : client.existing infoHash (withInfo sha1 spec).1 with
    | none =>
      dsimp only
      split
      · exact .inl ⟨_, rfl⟩
      · exact .inr ⟨infoHash, Bool.eq_false_iff.mpr shut, rfl, .inr ⟨there, rfl⟩⟩
    | some place =>
      dsimp only
      by_cases clash : client.conflicts place (withInfo sha1 spec).1 = true
      · rw [if_pos clash]
        exact .inl ⟨_, rfl⟩
      rw [if_neg clash]
      cases isTorrent : client.all[place]? with
      | none => exact .inl ⟨_, rfl⟩
      | some torrent =>
        dsimp only
        cases merges : mergeSpec torrent (withInfo sha1 spec).1 (withInfo sha1 spec).2 storageError with
        | error => exact .inl ⟨_, rfl⟩
        | ok merged =>
          rcases mergeSpec_hashes merges with ⟨sameHash, sameV2⟩
          exact .inr ⟨infoHash, Bool.eq_false_iff.mpr shut, rfl, .inl ⟨place, torrent, merged, there,
            Bool.eq_false_iff.mpr clash, isTorrent, sameHash, sameV2, rfl⟩⟩

theorem registered_eq (isRegistry : client.sources = some registry) :
    client.registered = registry.registered := by
  rw [registered, isRegistry]
  rfl

theorem registerSources_spec (running : Running client) (open_ : client.closed = false) (keys : TorrentKeys) :
    Exists fun registry => client.registerSources keys = { client with sources := some registry } /\
      registry.closed = false /\
      ∀ hash, hash ∈ registry.registered <-> hash ∈ client.registered \/
        hash ∈ keys.allShort /\ ∀ other ∈ keys.allShort, other ∉ client.registered := by
  rcases running open_ with ⟨registry, isRegistry, isOpen⟩
  rw [registered_eq isRegistry]
  unfold registerSources
  rw [isRegistry]
  dsimp only
  rcases Registry.registerTorrent_cases isOpen keys registry.nextIdentity with
    ⟨⟨error, refused⟩, known⟩ | ⟨after, accepted, stillOpen, fresh, members⟩
  · rw [refused]
    refine ⟨registry, by rw [<- isRegistry], isOpen, fun hash => ⟨Or.inl, ?_⟩⟩
    rintro (old | ⟨listed, unknown⟩)
    · exact old
    · rcases known hash listed with ⟨other, isOther, isKnown⟩
      exact absurd isKnown (unknown other isOther)
  · rw [accepted]
    refine ⟨after, rfl, stillOpen, fun hash => (members hash).trans ?_⟩
    exact or_congr_right ⟨fun listed => ⟨listed, fresh⟩, And.left⟩

/-! ## Merges -/

theorem mem_fromSpec (spec : TorrentSpec) (hash : InfoHash) : hash ∈ (fromSpec spec).allShort <->
    spec.infoHash = some hash \/ Exists fun v2 => spec.infoHashV2 = some v2 /\ v2.toShort = hash := by
  rw [mem_allShort, fromSpec]
  rw [Option.map_eq_some_iff]

theorem mem_newKeys (torrent : ClientTorrent) (spec : TorrentSpec) (hash : InfoHash) :
    hash ∈ (newKeys torrent spec).allShort <-> hash ≠ torrent.infoHash /\ (spec.infoHash = some hash \/
      torrent.infoHashV2 = none /\ Exists fun v2 => spec.infoHashV2 = some v2 /\ v2.toShort = hash) := by
  rw [mem_allShort, newKeys]
  dsimp only
  rw [Option.ite_none_right_eq_some, Option.bind_eq_some_iff]
  constructor
  · rintro (⟨differs, v1⟩ | ⟨v2, isV2, short⟩)
    · rw [v1, Option.any_some, bne_iff_ne] at differs
      exact ⟨differs, .inl v1⟩
    · rw [Option.ite_none_right_eq_some, Bool.and_eq_true, Option.isNone_iff_eq_none, bne_iff_ne] at short
      rcases short with ⟨⟨missing, differs⟩, same⟩
      have isHash := Option.some.inj same
      rw [isHash] at differs
      exact ⟨differs, .inr ⟨missing, v2, isV2, isHash⟩⟩
  · rintro ⟨differs, v1 | ⟨missing, v2, isV2, rfl⟩⟩
    · refine .inl ⟨?_, v1⟩
      rw [v1, Option.any_some, bne_iff_ne]
      exact differs
    · refine .inr ⟨v2, isV2, if_pos ?_⟩
      rw [missing, Option.isNone_none, Bool.true_and, bne_iff_ne]
      exact differs

theorem mem_fromSpec_of_newKeys (listed : hash ∈ (newKeys torrent spec).allShort) :
    hash ∈ (fromSpec spec).allShort :=
  (mem_fromSpec spec hash).mpr (((mem_newKeys torrent spec hash).mp listed).2.imp_right And.right)

/-- The sources accept the keys of a merge, and these are all the hashes that are new. -/
def Accepts (client : Client) (torrent : ClientTorrent) (spec : TorrentSpec) : Prop :=
  (∀ hash ∈ (fromSpec spec).allShort, hash ∈ client.torrentsByShort) \/
    (∀ hash ∈ (newKeys torrent spec).allShort, hash ∉ client.torrentsByShort) /\
    ∀ hash ∈ (fromSpec spec).allShort, hash ∉ client.torrentsByShort -> hash ∈ (newKeys torrent spec).allShort

theorem registersNew_iff (own : torrent.infoHash ∈ client.torrentsByShort) :
    client.RegistersNew torrent spec <-> client.Accepts torrent spec := by
  have differs : ∀ hash, hash ∉ client.torrentsByShort -> hash ≠ torrent.infoHash := by
    rintro _ unknown rfl
    exact unknown own
  refine or_congr_right ⟨?_, ?_⟩
  · rintro ⟨first, second⟩
    refine ⟨fun hash listed known => ?_, fun hash listed unknown => ?_⟩
    · rcases (mem_newKeys _ _ _).mp listed with ⟨other, v1 | ⟨missing, v2, isV2, rfl⟩⟩
      · exact other (first hash v1 known)
      · have kept := second v2 isV2
        rw [if_pos known, missing] at kept
        rcases kept with impossible | same
        · cases impossible
        · exact other same
    · refine (mem_newKeys _ _ _).mpr ⟨differs hash unknown, ?_⟩
      rcases (mem_fromSpec _ _).mp listed with v1 | ⟨v2, isV2, rfl⟩
      · exact .inl v1
      · have kept := second v2 isV2
        rw [if_neg unknown] at kept
        exact kept.symm.imp_right (fun missing => ⟨missing, v2, isV2, rfl⟩)
  · rintro ⟨unknown, listed⟩
    refine ⟨fun v1 isV1 known => ?_, fun v2 isV2 => ?_⟩
    · by_contra other
      exact unknown v1 ((mem_newKeys _ _ _).mpr ⟨other, .inl isV1⟩) known
    · split
      next known =>
        by_contra neither
        rw [not_or, Bool.not_eq_true, Option.isSome_eq_false_iff, Option.isNone_iff_eq_none] at neither
        exact unknown v2.toShort
          ((mem_newKeys _ _ _).mpr ⟨neither.2, .inr ⟨neither.1, v2, isV2, rfl⟩⟩) known
      next new =>
        have isKey := listed v2.toShort ((mem_fromSpec _ _).mpr (.inr ⟨v2, isV2, rfl⟩)) new
        exact (((mem_newKeys _ _ _).mp isKey).2.imp_right And.left).symm

theorem leads_of_not_conflicts (agrees : client.conflicts place spec = false) {other : Nat}
    (listed : hash ∈ (fromSpec spec).allShort)
    (leads : client.torrentsByShort.lookup hash = some other) : other = place := by
  unfold conflicts at agrees
  rw [Bool.or_eq_false_iff] at agrees
  rcases (mem_fromSpec spec hash).mp listed with v1 | ⟨v2, isV2, short⟩
  · have second := agrees.2
    rw [v1, Option.bind_some, leads] at second
    simpa using second
  · have first := agrees.1
    rw [isV2, Option.bind_some, short, leads] at first
    simpa using first

theorem mem_fromSpec_of_mainHash (main : mainHash spec = some infoHash) :
    infoHash ∈ (fromSpec spec).allShort := by
  rw [mem_fromSpec]
  unfold mainHash at main
  split at main
  next v1 isV1 =>
    cases main
    exact .inl isV1
  · exact .inr (Option.map_eq_some_iff.mp main)

theorem Consistent.reachable (consistent : Consistent client) (main : mainHash spec = some infoHash)
    (found : client.existing infoHash spec = some place) : Exists fun hash =>
      hash ∈ (fromSpec spec).allShort /\ client.torrentsByShort.lookup hash = some place := by
  have listed := mem_fromSpec_of_mainHash main
  unfold existing at found
  split at found
  · rename_i other leads
    cases found
    have inside := consistent.valid infoHash place leads
    have isTorrent := getElem?_eq_getElem inside
    refine ⟨infoHash, listed, (consistent.own infoHash place _ leads isTorrent).2 infoHash ?_⟩
    rw [mem_allShort]
    refine .inl ?_
    rw [<- (consistent.own infoHash place _ leads isTorrent).1]
    rfl
  · split at found
    · rename_i other leads
      cases found
      exact ⟨infoHash, listed, leads⟩
    · rcases Option.bind_eq_some_iff.mp found with ⟨v2, isV2, leads⟩
      exact ⟨v2.toShort, (mem_fromSpec _ _).mpr (Or.inr ⟨v2, isV2, rfl⟩), leads⟩

/-- Keys that are both missing are refused anyway. -/
theorem merge_eq_registerSources (client : Client) (place : Nat) (torrent merged : ClientTorrent)
    (spec : TorrentSpec) : client.merge place torrent merged spec =
      ({ client with all := client.all.set place merged }.addAliases place spec).registerSources
        (newKeys torrent spec) := by
  unfold merge
  dsimp only
  split
  · rfl
  rename_i missing
  rw [Bool.or_eq_true, not_or, Bool.not_eq_true, Bool.not_eq_true, Option.isSome_eq_false_iff,
    Option.isSome_eq_false_iff, Option.isNone_iff_eq_none, Option.isNone_iff_eq_none] at missing
  have none_ : (newKeys torrent spec).allShort = [] := by
    unfold allShort
    rw [missing.1, missing.2]
  have refused : ∀ registry : Registry, Exists fun error =>
      registry.registerTorrent (newKeys torrent spec) registry.nextIdentity = .error error := by
    intro registry
    unfold Registry.registerTorrent
    rw [none_]
    split <;> exact ⟨_, rfl⟩
  unfold registerSources
  split
  · rfl
  rename_i registry _
  rcases refused registry with ⟨error, refuses⟩
  rw [refuses]

/-- What a merge does: the aliases are added, and the sources either stay as
they were or learn the new keys. -/
theorem merge_eq (running : Running client) (open_ : client.closed = false) (place : Nat)
    (torrent merged : ClientTorrent) (spec : TorrentSpec) : Exists fun registry : Registry =>
      client.merge place torrent merged spec = { client with
          all := client.all.set place merged
          torrentsByShort := (fromSpec spec).allShort.foldl
            (fun map hash => map.insert hash place) client.torrentsByShort
          sources := some registry } /\
      registry.closed = false /\
      ∀ hash, hash ∈ registry.registered <-> hash ∈ client.registered \/
        hash ∈ (newKeys torrent spec).allShort /\
          ∀ other ∈ (newKeys torrent spec).allShort, other ∉ client.registered := by
  have aliased : Running ({ client with all := client.all.set place merged }.addAliases place spec) := running
  rw [merge_eq_registerSources]
  exact registerSources_spec aliased open_ _

/-- After the aliases are added, a hash leads to the torrent of the merge, or
where it led before. -/
theorem lookup_aliases (hash : InfoHash) :
    ((fromSpec spec).allShort.foldl (fun map hash => AList.insert hash place map)
      client.torrentsByShort).lookup hash = if hash ∈ (fromSpec spec).allShort then some place
      else client.torrentsByShort.lookup hash :=
  lookup_foldl_insert place hash _ _

theorem lookup_aliases_of_lookup (agrees : client.conflicts place spec = false) {other : Nat}
    (leads : client.torrentsByShort.lookup hash = some other) :
    (client.addAliases place spec).torrentsByShort.lookup hash = some other := by
  refine (lookup_aliases hash).trans ?_
  split
  next listed => rw [leads_of_not_conflicts agrees listed leads]
  · exact leads

theorem Consistent.merge (consistent : Consistent client) (running : Running client)
    (open_ : client.closed = false) (leads : client.torrentsByShort.lookup hash = some place)
    (agrees : client.conflicts place spec = false) (isTorrent : client.all[place]? = some torrent)
    (sameHash : merged.infoHash = torrent.infoHash) (sameV2 : merged.infoHashV2 = torrent.infoHashV2)
    (accepts : client.Accepts torrent spec) : Consistent (client.merge place torrent merged spec) /\
    Running (client.merge place torrent merged spec) := by
  rcases merge_eq running open_ place torrent merged spec with
    ⟨registry, shape, stillOpen, members⟩
  rw [shape]
  refine ⟨⟨?_, ?_, ?_, ?_⟩, fun _ => ⟨registry, rfl, stillOpen⟩⟩
  · intro short other led
    rw [length_set]
    rw [lookup_aliases] at led
    split at led
    · cases led
      exact consistent.live hash place leads
    · exact consistent.live short other led
  · intro hash other present leads isPresent
    have before : Exists fun old => client.all[other]? = some old /\
        present.infoHash = old.infoHash /\ torrentKeysFor present = torrentKeysFor old := by
      by_cases here : place = other
      · rw [<- here, getElem?_set_self (List.getElem?_eq_some_iff.mp isTorrent).1] at isPresent
        cases isPresent
        refine ⟨torrent, by rw [<- here]; exact isTorrent, sameHash, ?_⟩
        rw [torrentKeysFor, torrentKeysFor, sameHash, sameV2]
      · rw [getElem?_set_ne here] at isPresent
        exact ⟨present, isPresent, rfl, rfl⟩
    rcases before with ⟨old, isOld, hashes, keys⟩
    rcases consistent.own hash other old leads isOld with ⟨isHash, shorts⟩
    refine ⟨hashes.trans isHash, fun short listed => ?_⟩
    rw [keys] at listed
    exact lookup_aliases_of_lookup agrees (shorts short listed)
  · intro hash other leads
    rw [length_set]
    exact consistent.valid hash other leads
  · intro hash
    show hash ∈ registry.registered <-> _
    rw [members, lookup_aliases]
    constructor
    · rintro (known | ⟨isKey, _⟩)
      · split
        · rfl
        · exact (consistent.registered hash).mp known
      · rw [if_pos (mem_fromSpec_of_newKeys isKey)]
        rfl
    · intro leads
      cases led : client.torrentsByShort.lookup hash with
      | some => exact .inl ((consistent.registered hash).mpr (by rw [led]; rfl))
      | none =>
        rw [led] at leads
        split at leads
        · rename_i listed
          have isFresh := AList.lookup_eq_none.mp led
          rcases accepts with nothing | ⟨newFresh, freshNew⟩
          · exact absurd (nothing hash listed) isFresh
          · refine .inr ⟨freshNew hash listed isFresh, fun other isKey => ?_⟩
            rw [consistent.registered, AList.lookup_isSome]
            exact newFresh other isKey
        · cases leads

theorem not_consistent_merge (consistent : Consistent client) (running : Running client)
    (open_ : client.closed = false) (refuses : ¬ client.Accepts torrent spec) :
    ¬ Consistent (client.merge place torrent merged spec) := by
  rcases merge_eq running open_ place torrent merged spec with ⟨registry, shape, _, members⟩
  rw [shape]
  intro after
  apply refuses
  -- Afterwards every new hash is registered, so the keys were accepted as a whole.
  have accepted : ∀ hash ∈ (fromSpec spec).allShort, hash ∉ client.torrentsByShort ->
      hash ∈ (newKeys torrent spec).allShort /\
        ∀ other ∈ (newKeys torrent spec).allShort, other ∉ client.torrentsByShort := by
    intro hash listed isFresh
    have known : hash ∈ registry.registered := by
      refine (after.registered hash).mpr ?_
      rw [lookup_aliases, if_pos listed]
      rfl
    rcases (members hash).mp known with old | ⟨isKey, free⟩
    · rw [consistent.registered, AList.lookup_isSome] at old
      exact absurd old isFresh
    · refine ⟨isKey, fun other isOther => ?_⟩
      rw [<- AList.lookup_isSome, <- consistent.registered]
      exact free other isOther
  by_cases nothing : ∀ hash ∈ (fromSpec spec).allShort, hash ∈ client.torrentsByShort
  · exact .inl nothing
  push Not at nothing
  rcases nothing with ⟨first, listed, isFresh⟩
  exact .inr ⟨(accepted first listed isFresh).2, fun hash isListed new => (accepted hash isListed new).1⟩

/-! ## New torrents -/

theorem mem_torrentKeysFor (torrent : ClientTorrent) (hash : InfoHash) :
    hash ∈ (torrentKeysFor torrent).allShort <-> torrent.infoHash = hash \/
    Exists fun v2 => torrent.infoHashV2 = some v2 /\ v2.toShort = hash := by
  rw [mem_allShort, torrentKeysFor]
  rw [Option.map_eq_some_iff, Option.some_inj]

theorem free_of_not_existing (missing : client.existing infoHash spec = none)
    (listed : hash ∈ (torrentKeysFor (newTorrent infoHash spec info)).allShort) :
    client.torrentsByShort.lookup hash = none := by
  unfold existing at missing
  split at missing
  · cases missing
  split at missing
  · cases missing
  rename_i short
  rcases (mem_torrentKeysFor _ _).mp listed with own | ⟨v2, isV2, isHash⟩
  · rw [<- own]
    exact short
  · have both : spec.infoHashV2 = some v2 := isV2
    rw [both, Option.bind_some, isHash] at missing
    exact missing

/-- The client with a new torrent, before its keys are registered. -/
def inserted (client : Client) (torrent : ClientTorrent) : Client :=
  let short := client.torrentsByShort.insert torrent.infoHash client.all.length
  { client with
    all := client.all ++ [torrent]
    torrents := client.torrents.insert torrent.infoHash client.all.length
    torrentsByShort := match torrent.infoHashV2 with
      | none => short
      | some v2 => short.insert v2.toShort client.all.length }

theorem lookup_inserted (torrent : ClientTorrent) (hash : InfoHash) :
    (client.inserted torrent).torrentsByShort.lookup hash =
    if hash ∈ (torrentKeysFor torrent).allShort then some client.all.length
    else client.torrentsByShort.lookup hash := by
  rw [inserted]
  have listed := mem_torrentKeysFor torrent hash
  cases isV2 : torrent.infoHashV2 with
  | none =>
    rw [isV2] at listed
    rw [lookup_insert_eq]
    by_cases own : torrent.infoHash = hash
    · rw [if_pos own, if_pos (listed.mpr (Or.inl own))]
    rw [if_neg own, if_neg]
    intro member
    rcases listed.mp member with same | ⟨_, impossible, _⟩
    · exact own same
    · cases impossible
  | some v2 =>
    rw [isV2] at listed
    rw [lookup_insert_eq, lookup_insert_eq]
    by_cases short : v2.toShort = hash
    · rw [if_pos short, if_pos (listed.mpr (Or.inr ⟨v2, rfl, short⟩))]
    rw [if_neg short]
    by_cases own : torrent.infoHash = hash
    · rw [if_pos own, if_pos (listed.mpr (Or.inl own))]
    rw [if_neg own, if_neg]
    intro member
    rcases listed.mp member with same | ⟨_, isSome, same⟩
    · exact own same
    cases isSome
    exact short same

theorem lookup_inserted_of_lookup (missing : client.existing infoHash spec = none)
    (leads : client.torrentsByShort.lookup hash = some place) :
    (client.inserted (newTorrent infoHash spec info)).torrentsByShort.lookup hash = some place := by
  refine (lookup_inserted _ hash).trans ((if_neg ?_).trans leads)
  intro listed
  rw [free_of_not_existing missing listed] at leads
  cases leads

theorem Consistent.insertNew (consistent : Consistent client) (running : Running client)
    (open_ : client.closed = false) (below : ∀ place ∈ client.detached,
      place < client.all.length) (missing : client.existing infoHash spec = none)
    (info : Option Meta.Info) : Consistent (client.insertNew (newTorrent infoHash spec info)) /\
    Running (client.insertNew (newTorrent infoHash spec info)) := by
  let torrent := newTorrent infoHash spec info
  have fresh : ∀ hash ∈ (torrentKeysFor torrent).allShort, hash ∉ (client.inserted torrent).registered := by
    intro hash listed known
    have led := (consistent.registered hash).mp known
    rw [free_of_not_existing missing listed] at led
    cases led
  have insertedRunning : Running (client.inserted torrent) := running
  rcases registerSources_spec insertedRunning open_ (torrentKeysFor torrent) with
    ⟨registry, accepted, stillOpen, members⟩
  have shape : client.insertNew torrent =
      (client.inserted torrent).registerSources (torrentKeysFor torrent) := rfl
  rw [shape, accepted]
  refine ⟨⟨?_, ?_, ?_, ?_⟩, fun _ => ⟨registry, rfl, stillOpen⟩⟩
  · intro hash place leads
    have led := (lookup_inserted torrent hash).symm.trans leads
    rw [inserted, length_append]
    split at led
    · cases led
      exact ⟨Nat.lt_succ_self _, fun dropped => Nat.lt_irrefl _ (below _ dropped)⟩
    · have live := consistent.live hash place led
      exact ⟨Nat.lt_succ_of_lt live.1, live.2⟩
  · intro hash place present leads isPresent
    have led : (client.torrents.insert torrent.infoHash client.all.length).lookup hash = some place := leads
    have there : (client.all ++ [torrent])[place]? = some present := isPresent
    rw [lookup_insert_eq] at led
    split at led
    · rename_i own
      cases led
      rw [getElem?_append_right (Nat.le_refl _), Nat.sub_self] at there
      cases there
      refine ⟨own, fun short listed => ?_⟩
      exact (lookup_inserted torrent short).trans (if_pos listed)
    · have inside := consistent.valid hash place led
      rw [getElem?_append_left inside] at there
      rcases consistent.own hash place present led there with ⟨isHash, shorts⟩
      exact ⟨isHash, fun short listed => lookup_inserted_of_lookup missing (shorts short listed)⟩
  · rw [inserted, length_append]
    refine forall_lookup_insert (Nat.lt_succ_self _) fun hash place leads => ?_
    exact Nat.lt_succ_of_lt (consistent.valid hash place leads)
  · intro hash
    show hash ∈ registry.registered <-> ((client.inserted torrent).torrentsByShort.lookup hash).isSome = true
    rw [members, lookup_inserted]
    have known : hash ∈ (client.inserted torrent).registered <->
      (client.torrentsByShort.lookup hash).isSome = true := consistent.registered hash
    rw [known]
    constructor
    · rintro (old | ⟨listed, _⟩)
      · split
        · rfl
        · exact old
      · rw [if_pos listed]
        rfl
    · intro leads
      split at leads
      · rename_i listed
        exact .inr ⟨listed, fresh⟩
      · exact .inl leads

theorem Consistent.detachTorrent (consistent : Consistent client) (place : Nat) :
    Consistent (client.detachTorrent place) := by
  have kept : ∀ {hash : InfoHash} {other : Nat},
      (client.detachTorrent place).torrentsByShort.lookup hash = some other <->
        client.torrentsByShort.lookup hash = some other /\ other ≠ place :=
    lookup_retain_ne _ _ _ _
  have keptOwn : ∀ {hash : InfoHash} {other : Nat},
      (client.detachTorrent place).torrents.lookup hash = some other <->
        client.torrents.lookup hash = some other /\ other ≠ place :=
    lookup_retain_ne _ _ _ _
  refine ⟨?_, ?_, ?_, ?_⟩
  · intro hash other leads
    rcases kept.mp leads with ⟨led, different⟩
    have live := consistent.live hash other led
    refine ⟨live.1, ?_⟩
    show other ∉ insert place client.detached
    rw [Finset.mem_insert, not_or]
    exact ⟨different, live.2⟩
  · intro hash other torrent leads isTorrent
    rcases keptOwn.mp leads with ⟨led, different⟩
    rcases consistent.own hash other torrent led isTorrent with ⟨isHash, shorts⟩
    exact ⟨isHash, fun hash listed => kept.mpr ⟨shorts hash listed, different⟩⟩
  · intro hash other leads
    exact consistent.valid hash other (keptOwn.mp leads).1
  · intro hash
    have lists : hash ∈ (client.torrentsByShort.entries.filter (fun entry =>
        entry.2 == place)).map (fun entry => entry.1) <->
          client.torrentsByShort.lookup hash = some place := by
      rw [mem_map]
      constructor
      · rintro ⟨⟨key, value⟩, member, same⟩
        rw [mem_filter, beq_iff_eq] at member
        have isKey : key = hash := same
        rw [<- isKey, <- member.2]
        exact (mem_entries_iff _ _ _).mp member.1
      · intro leads
        refine ⟨⟨hash, place⟩, ?_, rfl⟩
        rw [mem_filter]
        exact ⟨(mem_entries_iff _ _ _).mpr leads, beq_self_eq_true _⟩
    have sources : hash ∈ (client.detachTorrent place).registered <->
        hash ∈ client.registered /\ client.torrentsByShort.lookup hash ≠ some place := by
      cases isRegistry : client.sources with
      | none =>
        have none_ : client.registered = ∅ := by
          rw [Client.registered, isRegistry]
          rfl
        have after : (client.detachTorrent place).registered = ∅ := by
          rw [Client.detachTorrent, isRegistry]
          rfl
        rw [none_, after]
        simp
      | some registry =>
        have after : (client.detachTorrent place).registered = (((client.torrentsByShort.entries
            |>.filter (fun entry => entry.2 == place)).map (fun entry => entry.1)).foldl
            (fun registry hash => registry.unregisterTorrent { v1 := some hash })
            registry).registered := by
          rw [Client.detachTorrent, isRegistry]
          rfl
        rw [after, (Registry.unregister_all _ _ _).1, lists, registered_eq isRegistry]
    rw [sources, consistent.registered, Option.isSome_iff_exists, Option.isSome_iff_exists]
    constructor
    · rintro ⟨⟨other, leads⟩, different⟩
      refine ⟨other, kept.mpr ⟨leads, fun same => different ?_⟩⟩
      rw [<- same]
      exact leads
    · rintro ⟨other, leads⟩
      rcases kept.mp leads with ⟨led, different⟩
      refine ⟨⟨other, led⟩, fun same => different ?_⟩
      rw [led] at same
      exact Option.some.inj same

theorem running_detachTorrent (running : Running client) (place : Nat) :
    Running (client.detachTorrent place) := by
  intro open_
  rcases running open_ with ⟨registry, isRegistry, isOpen⟩
  let hashes := (client.torrentsByShort.entries.filter (fun entry => entry.2 == place)).map
    (fun entry => entry.1)
  refine ⟨hashes.foldl (fun registry hash => registry.unregisterTorrent { v1 := some hash }) registry, ?_, ?_⟩
  · show client.sources.map _ = some _
    rw [isRegistry]
    rfl
  · rw [(Registry.unregister_all hashes (Vector.replicate 20 0) registry).2]
    exact isOpen

theorem consistent_of_empty (torrents : client.torrents = ∅) (short : client.torrentsByShort = ∅)
    (unknown : client.registered = ∅) : Consistent client := by
  refine ⟨?_, ?_, ?_, ?_⟩
  · intro hash place leads
    rw [short] at leads
    cases leads
  · intro hash place torrent leads
    rw [torrents] at leads
    cases leads
  · intro hash place leads
    rw [torrents] at leads
    cases leads
  · intro hash
    rw [unknown, short]
    exact ⟨fun known => absurd known (Finset.notMem_empty _), nofun⟩

theorem consistent_close (consistent : Consistent client) (running : Running client) :
    Consistent client.close /\ Running client.close := by
  unfold close
  split
  · exact ⟨consistent, running⟩
  · exact ⟨consistent_of_empty rfl rfl rfl, nofun⟩

/-! ## The maps alone -/

/-- What the maps keep, whatever the sources know. -/
structure Maps (client : Client) : Prop where
  own : ∀ place torrent, client.all[place]? = some torrent -> place ∉ client.detached ->
    client.closed = false -> client.torrentsByShort.lookup torrent.infoHash = some place
  live : ∀ hash place, client.torrents.lookup hash = some place ->
    place ∉ client.detached /\ client.closed = false
  below : ∀ place ∈ client.detached, place < client.all.length

def Leads (client : Client) (place : Nat) (hash : InfoHash) : Prop :=
  client.closed = true ∨ place ∈ client.detached ∨ client.torrentsByShort.lookup hash = some place

theorem registerSources_shape (client : Client) (keys : TorrentKeys) :
    Exists fun sources => client.registerSources keys = { client with sources := sources } := by
  unfold registerSources
  split
  · exact ⟨client.sources, rfl⟩
  split
  · exact ⟨client.sources, rfl⟩
  · exact ⟨_, rfl⟩

theorem merge_shape (client : Client) (place : Nat) (torrent merged : ClientTorrent)
    (spec : TorrentSpec) : Exists fun sources => client.merge place torrent merged spec =
      { { client with all := client.all.set place merged }.addAliases place spec with
        sources := sources } := by
  unfold merge
  dsimp only
  split
  · exact registerSources_shape _ _
  · exact ⟨_, rfl⟩

theorem insertNew_shape (client : Client) (torrent : ClientTorrent) : Exists fun sources =>
      client.insertNew torrent = { client.inserted torrent with sources := sources } :=
  registerSources_shape _ _

section Maps

variable (maps : Maps client)
include maps

theorem Maps.merge (agrees : client.conflicts place spec = false)
    (isTorrent : client.all[place]? = some torrent) (sameHash : merged.infoHash = torrent.infoHash) :
    Maps (client.merge place torrent merged spec) /\ ∀ other hash, Leads client other hash ->
    Leads (client.merge place torrent merged spec) other hash := by
  rcases merge_shape client place torrent merged spec with ⟨_, shape⟩
  rw [shape]
  refine ⟨⟨?_, maps.live, ?_⟩, ?_⟩
  · intro other found isFound kept open_
    have there : (client.all.set place merged)[other]? = some found := isFound
    have before : Exists fun old => client.all[other]? = some old /\ old.infoHash = found.infoHash := by
      rw [getElem?_set] at there
      split at there
      · rename_i same
        split at there
        · cases there
          rw [<- same]
          exact ⟨torrent, isTorrent, sameHash.symm⟩
        · cases there
      · exact ⟨found, there, rfl⟩
    rcases before with ⟨old, isOld, oldHash⟩
    have leads := maps.own other old isOld kept open_
    rw [oldHash] at leads
    exact lookup_aliases_of_lookup agrees leads
  · intro other dropped
    have inside := maps.below other dropped
    show other < (client.all.set place merged).length
    rw [length_set]
    exact inside
  · rintro other hash (shut | dropped | leads)
    · exact .inl shut
    · exact .inr (Or.inl dropped)
    · exact .inr (Or.inr (lookup_aliases_of_lookup agrees leads))

theorem Maps.insertNew (open_ : client.closed = false)
    (missing : client.existing infoHash spec = none) (info : Option Meta.Info) :
    Maps (client.insertNew (newTorrent infoHash spec info)) /\ ∀ other hash, Leads client other hash ->
      Leads (client.insertNew (newTorrent infoHash spec info)) other hash := by
  let torrent := newTorrent infoHash spec info
  have fresh : client.all.length ∉ client.detached :=
    fun dropped => Nat.lt_irrefl _ (maps.below _ dropped)
  rcases insertNew_shape client torrent with ⟨_, shape⟩
  rw [shape]
  refine ⟨⟨?_, ?_, ?_⟩, ?_⟩
  · intro other found isFound kept _
    have there : (client.all ++ [torrent])[other]? = some found := isFound
    rw [getElem?_append] at there
    split at there
    · exact lookup_inserted_of_lookup missing (maps.own other found there kept open_)
    rename_i outside
    have place : other = client.all.length := by
      have inside := (List.getElem?_eq_some_iff.mp there).1
      rw [length_singleton] at inside
      omega
    rw [place, Nat.sub_self] at there
    cases there
    rw [place]
    refine (lookup_inserted torrent torrent.infoHash).trans (if_pos ?_)
    exact (mem_torrentKeysFor _ _).mpr (Or.inl rfl)
  · exact forall_lookup_insert ⟨fresh, open_⟩ maps.live
  · intro other dropped
    have inside := maps.below other dropped
    rw [inserted, length_append]
    omega
  · rintro other hash (shut | dropped | leads)
    · exact .inl shut
    · exact .inr (Or.inl dropped)
    · exact .inr (Or.inr (lookup_inserted_of_lookup missing leads))

/-- A call of `add_torrent_spec` takes no hash from a torrent. -/
theorem Maps.addTorrentSpec (sha1 : List UInt8 -> InfoHash) (spec : TorrentSpec)
    (storageError : Option String) : Maps (client.addTorrentSpec sha1 spec storageError).2 /\ ∀ other hash,
    Leads client other hash -> Leads (client.addTorrentSpec sha1 spec storageError).2 other hash := by
  rcases addTorrentSpec_cases sha1 client spec storageError with
    ⟨_, same⟩ | ⟨infoHash, open_, _, ⟨place, torrent, merged, _, agrees, isTorrent, sameHash, _, shape⟩ |
      ⟨missing, shape⟩⟩
  · rw [same]
    exact ⟨maps, fun _ _ leads => leads⟩
  · rw [shape]
    exact maps.merge agrees isTorrent sameHash
  · rw [shape]
    exact maps.insertNew open_ missing _

theorem Maps.detachTorrent (inside : place < client.all.length) : Maps (client.detachTorrent place) /\
    ∀ other hash, Leads client other hash -> Leads (client.detachTorrent place) other hash := by
  refine ⟨⟨?_, ?_, ?_⟩, ?_⟩
  · intro other torrent isTorrent stays open_
    have both : other ≠ place /\ other ∉ client.detached := by
      have outside : other ∉ insert place client.detached := stays
      rwa [Finset.mem_insert, not_or] at outside
    exact (lookup_retain_ne _ _ _ _).mpr ⟨maps.own other torrent isTorrent both.2 open_, both.1⟩
  · intro hash other leads
    rcases (lookup_retain_ne _ _ _ _).mp leads with ⟨before, different⟩
    have live := maps.live hash other before
    refine ⟨?_, live.2⟩
    show other ∉ insert place client.detached
    rw [Finset.mem_insert, not_or]
    exact ⟨different, live.1⟩
  · intro other dropped
    rcases Finset.mem_insert.mp dropped with same | old
    · rw [same]
      exact inside
    · exact maps.below other old
  · rintro other hash (shut | dropped | leads)
    · exact .inl shut
    · exact .inr (Or.inl (Finset.mem_insert_of_mem dropped))
    · by_cases same : other = place
      · rw [same]
        exact .inr (Or.inl (Finset.mem_insert_self _ _))
      · exact .inr (Or.inr ((lookup_retain_ne _ _ _ _).mpr ⟨leads, same⟩))

theorem Maps.close : Maps client.close /\
    ∀ other hash, Leads client other hash -> Leads client.close other hash := by
  unfold Client.close
  split
  · exact ⟨maps, fun _ _ leads => leads⟩
  refine ⟨⟨?_, ?_, maps.below⟩, fun _ _ _ => Or.inl rfl⟩
  · nofun
  · nofun

theorem Maps.step {label : Label} {after : Client}
    (moved : client.step sha1 label = some after) : Maps after := by
  cases label with
  | add spec storageError =>
    cases moved
    exact (maps.addTorrentSpec sha1 spec storageError).1
  | detach place =>
    rcases Option.ite_none_right_eq_some.mp moved with ⟨inside, done⟩
    cases done
    exact (maps.detachTorrent inside).1
  | close =>
    cases moved
    exact maps.close.1

end Maps

/-! ## Runs -/

/-- In every run of an open client, a torrent that was not dropped is found under its own hash
and is the only one with that hash. -/
theorem own_hash_leads_of_run {labels : List Label}
    (run : (machine sha1).RunsTo Machine.always labels client) (open_ : client.closed = false) :
    ∀ place torrent, client.all[place]? = some torrent -> place ∉ client.detached ->
      client.torrentsByShort.lookup torrent.infoHash = some place ∧
      ∀ other twin, client.all[other]? = some twin -> other ∉ client.detached ->
        twin.infoHash = torrent.infoHash -> other = place := by
  have maps : Maps client := by
    refine run.stateInvariant (fun _ initial => ?_) (fun _ _ _ maps _ moved => maps.step moved)
    rcases initial with ⟨_, rfl⟩
    exact ⟨nofun, nofun, nofun⟩
  intro place torrent found stays
  have own := maps.own place torrent found stays open_
  refine ⟨own, fun other twin isTwin twinStays same => ?_⟩
  have second := maps.own other twin isTwin twinStays open_
  rw [same, own] at second
  exact (Option.some.inj second).symm

/-- What holds between two calls. -/
structure Sound (client : Client) : Prop where
  consistent : Consistent client
  running : Running client
  maps : Maps client

theorem Sound.registersNew_iff (sound : Sound client) (open_ : client.closed = false)
    (leads : client.torrentsByShort.lookup hash = some place)
    (isTorrent : client.all[place]? = some torrent) :
    client.RegistersNew torrent spec <-> client.Accepts torrent spec := by
  have own := sound.maps.own place torrent isTorrent (sound.consistent.live hash place leads).2 open_
  exact Client.registersNew_iff (AList.lookup_isSome.mp (Option.isSome_of_eq_some own))

theorem Sound.step {after : Client} {label : Label}
    (sound : Sound client) (registers : Registers sha1 client label)
    (moved : Client.step sha1 client label = some after) : Sound after := by
  have maps := sound.maps.step moved
  cases label with
  | add spec storageError =>
    cases moved
    rcases addTorrentSpec_cases sha1 client spec storageError with ⟨_, same⟩ | ⟨infoHash, open_, main,
      ⟨place, torrent, merged, found, agrees, isTorrent, sameHash, sameV2, shape⟩ | ⟨missing, shape⟩⟩
    · rw [same]
      exact sound
    · rcases sound.consistent.reachable main found with ⟨hash, listed, leads⟩
      have accepts := (sound.registersNew_iff open_ leads isTorrent).mp
        (registers hash listed place leads torrent isTorrent)
      rw [shape] at maps ⊢
      have kept := sound.consistent.merge sound.running open_ leads agrees isTorrent sameHash sameV2 accepts
      exact ⟨kept.1, kept.2, maps⟩
    · have kept := sound.consistent.insertNew sound.running open_ sound.maps.below missing
        (withInfo sha1 spec).2
      rw [shape] at maps ⊢
      exact ⟨kept.1, kept.2, maps⟩
  | detach place =>
    rcases Option.ite_none_right_eq_some.mp moved with ⟨_, ⟨⟩⟩
    exact ⟨sound.consistent.detachTorrent place, running_detachTorrent sound.running place, maps⟩
  | close =>
    cases moved
    have kept := consistent_close sound.consistent sound.running
    exact ⟨kept.1, kept.2, maps⟩

theorem sound_run {labels : List Label}
    (run : (machine sha1).RunsTo (Registers sha1) labels client) : Sound client := by
  refine run.stateInvariant (fun first initial => ?_)
    (fun _ _ _ sound registers moved => sound.step registers moved)
  rcases initial with ⟨cfg, rfl⟩
  exact ⟨consistent_of_empty rfl rfl rfl, fun _ => ⟨{ cfg := cfg }, rfl, rfl⟩, nofun, nofun, nofun⟩

/-- In every run whose merges register the hashes they bring, the two maps and
the sources agree after every call; and a merge that does not register them
breaks the agreement. -/
theorem consistent_of_registers {sha1 : List UInt8 -> InfoHash} {labels : List Label}
    (run : (machine sha1).RunsTo (Registers sha1) labels client) : Consistent client ∧
      forall spec storageError place torrent,
        (client.addTorrentSpec sha1 spec storageError).1 = .ok (place, false) ->
        client.all[place]? = some torrent -> ¬ client.RegistersNew torrent (withInfo sha1 spec).1 ->
        ¬ Consistent (client.addTorrentSpec sha1 spec storageError).2 := by
  have sound := sound_run run
  refine ⟨sound.consistent, ?_⟩
  intro spec storageError place torrent answer isTorrent misses
  rcases addTorrentSpec_cases sha1 client spec storageError with ⟨_, same⟩ | ⟨infoHash, open_, main,
    ⟨other, found, merged, there, _, isFound, _, _, shape⟩ | ⟨_, shape⟩⟩
  · rw [same] at answer
    cases answer
  · rw [shape] at answer ⊢
    cases answer
    rw [isTorrent] at isFound
    cases isFound
    rcases sound.consistent.reachable main there with ⟨hash, _, leads⟩
    rw [sound.registersNew_iff open_ leads isTorrent] at misses
    exact not_consistent_merge sound.consistent sound.running open_ misses
  · rw [shape] at answer
    cases answer

instance (client : Client) (torrent : ClientTorrent) (spec : TorrentSpec) :
    Decidable (client.RegistersNew torrent spec) :=
  @instDecidableOr _ _ (decidableBAll _ _)
    (@instDecidableAnd _ _ (Option.decidableForallMem _) (Option.decidableForallMem _))

instance (sha1 : List UInt8 -> InfoHash) : ∀ (client : Client) (label : Label),
    Decidable (Registers sha1 client label)
  | _, .add _ _ => decidableBAll _ _
  | _, .detach _ | _, .close => isTrue trivial

/-- Stands for the hash function in the runs below; it is not called there. -/
def exampleSha1 (_ : List UInt8) : InfoHash :=
  Vector.replicate 20 0

def onlyV1 : TorrentSpec :=
  { infoHash := some (Vector.replicate 20 1) }

def hybrid : TorrentSpec :=
  { infoHash := some (Vector.replicate 20 1), infoHashV2 := some (Vector.replicate 32 2) }

/-- The v2 hash of `hybrid` with another v1 hash. -/
def otherV1 : TorrentSpec :=
  { infoHash := some (Vector.replicate 20 3), infoHashV2 := some (Vector.replicate 32 2) }

def startClient : Client :=
  { sources := some {} }

def secondV1 : TorrentSpec :=
  { infoHash := some (Vector.replicate 20 3) }

/-- Two torrents, a merge into the first, and the second dropped and added again: the dropped one
has the same hash. -/
theorem own_hash_leads_readded : let reached := ((machine exampleSha1).exec startClient [.add onlyV1 none,
      .add secondV1 none, .add hybrid none, .detach 1, .add secondV1 none]).getD startClient
    reached.all.map ClientTorrent.infoHash =
      [Vector.replicate 20 1, Vector.replicate 20 3, Vector.replicate 20 3] ∧
    ∀ torrent, reached.all[2]? = some torrent ->
      reached.torrentsByShort.lookup torrent.infoHash = some 2 ∧
      ∀ other twin, reached.all[other]? = some twin -> other ∉ reached.detached ->
        twin.infoHash = torrent.infoHash -> other = 2 := by
  refine ⟨by decide +kernel, fun torrent found => ?_⟩
  exact @own_hash_leads_of_run _ exampleSha1 [.add onlyV1 none, .add secondV1 none, .add hybrid none,
    .detach 1, .add secondV1 none] (.of_exec ⟨{}, rfl⟩ (Machine.permits_always _ _ startClient) rfl)
    (by decide +kernel) 2 torrent found (by decide +kernel)

theorem consistent_hybrid : let reached := ((machine exampleSha1).exec startClient
      [.add onlyV1 none, .add hybrid none]).getD startClient
    reached.torrentsByShort.lookup (Vector.replicate 20 2) = some 0 ∧ Consistent reached := by
  refine ⟨by decide +kernel, (@consistent_of_registers _ exampleSha1 [.add onlyV1 none, .add hybrid none]
    (.of_exec ⟨{}, rfl⟩ (by decide +kernel) rfl)).1⟩

/-- A torrent gets a v2 hash, and then another v1 hash together with it.  The
new hash leads to the torrent and is not registered. -/
theorem alias_not_registered :
    let labels := [Label.add onlyV1 none, .add hybrid none, .add otherV1 none]
    let reached := ((machine exampleSha1).exec startClient labels).getD startClient
    (machine exampleSha1).RunsTo Machine.always labels reached ∧
      reached.torrentsByShort.lookup (Vector.replicate 20 3) = some 0 ∧
      Vector.replicate 20 3 ∉ reached.registered ∧ ¬ Consistent reached := by
  refine ⟨.of_exec ⟨{}, rfl⟩ ((machine exampleSha1).permits_always _ _) rfl, by decide +kernel,
    by decide +kernel, fun consistent => ?_⟩
  have known := (consistent.registered (Vector.replicate 20 3)).mpr rfl
  exact absurd known (by decide +kernel)

end Client
end TorrentPlayer.Discovery
