import Mathlib.Data.List.Sort
import TorrentPlayer.Library.Machine

namespace TorrentPlayer.Storage

open Library List Option

/-!
# The store of DHT contacts

A contact that is remembered goes to the end of its family.  The families are
sorted by the time of the last answer, which is never set here, and cut off at
32.  So a new contact of a full family is the one that is cut off.  What a file
lists twice is in the store twice.

Texts are byte strings.  How an address is read and written is not a part of this
program.
-/

inductive IpAddr where
  | v4 (bits : BitVec 32)
  | v6 (bits : BitVec 128)
  deriving DecidableEq

namespace IpAddr

def isUnspecified : IpAddr -> Bool
  | v4 bits | v6 bits => bits == 0

def isLoopback : IpAddr -> Bool
  | v4 bits => bits >>> 24 == 127
  | v6 bits => bits == 1

def isMulticast : IpAddr -> Bool
  | v4 bits => bits >>> 28 == 0xE
  | v6 bits => bits >>> 120 == 0xFF

/-- The bytes of `ipv4` and `ipv6`. -/
def family : IpAddr -> List UInt8
  | v4 _ => [105, 112, 118, 52]
  | v6 _ => [105, 112, 118, 54]

def isV6 : IpAddr -> Bool
  | v4 _ => false
  | v6 _ => true

end IpAddr

structure SocketAddr where
  ip : IpAddr
  port : BitVec 16
  deriving DecidableEq

/-- How addresses are read and written: what is written is read back. -/
structure AddrText where
  parse : List UInt8 -> Option SocketAddr
  toText : SocketAddr -> List UInt8
  parse_toText : ∀ text addr, parse text = some addr -> parse (toText addr) = some addr

def isValidPeerAddr (net : AddrText) (text : List UInt8) : Option SocketAddr :=
  (net.parse text).filter (fun addr =>
    !(addr.port == 0 || addr.ip.isUnspecified || addr.ip.isLoopback || addr.ip.isMulticast))

structure DhtContact where
  addr : List UInt8
  family : List UInt8
  lastGood : List UInt8
  expires : List UInt8

def isV6Label (family : List UInt8) : Bool :=
  family == [105, 112, 118, 54]

namespace DhtContact

def isV6 (contact : DhtContact) : Bool :=
  isV6Label contact.family

/-- A known contact is heard of again. -/
def renew (contact existing : DhtContact) : DhtContact :=
  { existing with
    lastGood :=
      if contact.lastGood.isEmpty && !existing.lastGood.isEmpty then existing.lastGood
      else contact.lastGood
    expires := contact.expires }

end DhtContact

def dhtContactTtl : Nat :=
  24 * 3600

def dhtContactMaxPerFamily : Nat :=
  32

def ofFamily (contacts : List DhtContact) (v6 : Bool) : List DhtContact :=
  contacts.filter (fun contact => contact.isV6 == v6)

def newest (group : List DhtContact) : List DhtContact :=
  (group.insertionSort (fun first second => second.lastGood <= first.lastGood)).take dhtContactMaxPerFamily

/-- The contact is renewed where it is known, and appended where it is not. -/
def listed (contacts : List DhtContact) (contact : DhtContact) : List DhtContact :=
  if contacts.any (fun known => known.addr == contact.addr) then
    contacts.modify (contacts.findIdx (fun known => known.addr == contact.addr)) contact.renew
  else contacts ++ [contact]

section
variable (net : AddrText) (formatTime : Nat -> List UInt8) (parseTime : List UInt8 -> Option Nat)

def newContact (addr : SocketAddr) (familyOpt : Option (List UInt8)) (now : Nat) : DhtContact where
  addr := net.toText addr
  family := ((familyOpt.filter (fun family => !family.isEmpty)).getD addr.ip.family)
  lastGood := []
  expires := formatTime (now + dhtContactTtl)

def rememberDhtContact (contacts : List DhtContact) (addrStr : List UInt8)
    (familyOpt : Option (List UInt8)) (now : Nat) : List DhtContact :=
  match isValidPeerAddr net addrStr with
  | none => contacts
  | some addr =>
    let all := listed contacts (newContact net formatTime addr familyOpt now)
    newest (ofFamily all false) ++ newest (ofFamily all true)

def loadContact (now : Nat) (kept : List DhtContact) (contact : DhtContact) : List DhtContact :=
  match isValidPeerAddr net contact.addr with
  | none => kept
  | some addr =>
    if dhtContactMaxPerFamily <= kept.countP (fun other => other.family == addr.ip.family) then
      kept
    else
      match parseTime contact.expires with
      | some expires =>
        if now < expires then kept ++ [{ contact with family := addr.ip.family }] else kept
      | none => kept

/-- `none` is a file that is missing, too long or not of this form. -/
def loadContacts (contacts : List DhtContact) (file : Option (List DhtContact)) (now : Nat) :
    List DhtContact :=
  match file with
  | none => contacts
  | some saved => saved.foldl (loadContact net parseTime now) []

inductive ContactLabel where
  | load (file : Option (List DhtContact)) (now : Nat)
  | remember (addrStr : List UInt8) (familyOpt : Option (List UInt8)) (now : Nat)

def contactMachine : Machine (List DhtContact) ContactLabel where
  init contacts := contacts = []
  step contacts
    | .load file now => some (loadContacts net parseTime contacts file now)
    | .remember addrStr familyOpt now =>
      some (rememberDhtContact net formatTime contacts addrStr familyOpt now)

/-- The contacts with an address of a family, whatever they are labelled. -/
def ofAddressFamily (contacts : List DhtContact) (v6 : Bool) : List DhtContact :=
  contacts.filter (fun contact => (net.parse contact.addr).any (fun addr => addr.ip.isV6) == v6)

/-- A contact is written the way its address is, and is labelled with its family. -/
def Spelled (contact : DhtContact) : Prop :=
  Exists fun addr : SocketAddr => isValidPeerAddr net contact.addr = some addr /\
    net.toText addr = contact.addr /\ contact.isV6 = addr.ip.isV6

/-- No address twice, and no more than 32 contacts with an address of a family. -/
structure SoundContacts (contacts : List DhtContact) : Prop where
  once : (contacts.map DhtContact.addr).Nodup
  spelled : ∀ contact ∈ contacts, Spelled net contact
  few : ∀ v6, (ofAddressFamily net contacts v6).length <= dhtContactMaxPerFamily

/-- A file lists every address once, as it is written.  A contact that is new is
labelled with the family of its address, if it is labelled, and finds room there. -/
def CarefulContacts (contacts : List DhtContact) : ContactLabel -> Prop
  | .load file _ => ∀ saved ∈ file,
      ((saved.filter (fun contact => (isValidPeerAddr net contact.addr).isSome)).map
        DhtContact.addr).Nodup /\
      ∀ contact ∈ saved, ∀ addr ∈ isValidPeerAddr net contact.addr, net.toText addr = contact.addr
  | .remember addrStr familyOpt _ => ∀ addr ∈ isValidPeerAddr net addrStr,
      net.toText addr ∉ contacts.map DhtContact.addr ->
      familyOpt.all (fun family => family.isEmpty || isV6Label family == addr.ip.isV6) = true /\
        (ofAddressFamily net contacts addr.ip.isV6).length < dhtContactMaxPerFamily

end

/-! ## Remembering -/

section
variable {net : AddrText} {formatTime : Nat -> List UInt8} {parseTime : List UInt8 -> Option Nat}
variable {contacts group : List DhtContact} {contact : DhtContact}

theorem newest_subperm (group : List DhtContact) : (newest group).Subperm group :=
  (take_sublist _ _).subperm.trans (perm_insertionSort _ group).subperm

theorem mem_newest (few : group.length <= dhtContactMaxPerFamily) :
    contact ∈ newest group <-> contact ∈ group := by
  rw [newest, take_of_length_le (by rwa [length_insertionSort]), mem_insertionSort]

theorem length_newest (group : List DhtContact) : (newest group).length <= dhtContactMaxPerFamily :=
  length_take_le _ _

/-- What `listed` changes: the times of one contact, or one contact more. -/
theorem listed_cases (contacts : List DhtContact) (contact : DhtContact) :
    (contact.addr ∉ contacts.map DhtContact.addr /\ listed contacts contact = contacts ++ [contact]) \/
    Exists fun index : Nat => Exists fun known : DhtContact => contacts[index]? = some known /\
    known.addr = contact.addr /\ listed contacts contact = contacts.modify index contact.renew := by
  unfold listed
  split
  next known =>
    refine .inr ?_
    have found := findIdx_lt_length.mpr (any_eq_true.mp known)
    refine ⟨_, _, getElem?_eq_getElem found, ?_, rfl⟩
    exact beq_iff_eq.mp (findIdx_getElem (w := found))
  next unknown =>
    refine .inl ⟨?_, rfl⟩
    intro within
    rcases mem_map.mp within with ⟨known, there, same⟩
    exact unknown (any_eq_true.mpr ⟨known, there, beq_iff_eq.mpr same⟩)

theorem map_modify_renew {Field : Type} (field : DhtContact -> Field)
    (same : ∀ known, field (contact.renew known) = field known) (index : Nat) :
    (contacts.modify index contact.renew).map field = contacts.map field := by
  apply ext_getElem?
  intro position
  rw [getElem?_map, getElem?_modify, getElem?_map]
  cases contacts[position]? with
  | none => rfl
  | some known => by_cases here : index = position <;> simp [here, same]

theorem ofFamily_append (first second : List DhtContact) (v6 : Bool) :
    ofFamily (first ++ second) v6 = ofFamily first v6 ++ ofFamily second v6 :=
  filter_append _ _

section
variable (contacts : List DhtContact)

theorem length_ofFamily (v6 : Bool) :
    (ofFamily contacts v6).length = (contacts.map DhtContact.isV6).countP (· == v6) := by
  rw [countP_map, countP_eq_length_filter]
  rfl

theorem length_ofFamily_modify (contact : DhtContact) (index : Nat) (v6 : Bool) :
    (ofFamily (contacts.modify index contact.renew) v6).length = (ofFamily contacts v6).length := by
  rw [length_ofFamily, length_ofFamily, map_modify_renew DhtContact.isV6 (fun _ => rfl)]

theorem families_perm : (ofFamily contacts false ++ ofFamily contacts true).Perm contacts := by
  have parts := filter_append_perm (fun contact : DhtContact => contact.isV6 == false) contacts
  simpa [ofFamily] using parts

end

theorem families_subperm (all : List DhtContact) :
    (newest (ofFamily all false) ++ newest (ofFamily all true)).Subperm all :=
  (((subperm_append_right _).mpr (newest_subperm _)).trans
    ((subperm_append_left _).mpr (newest_subperm _))).trans (families_perm all).subperm

theorem length_families (all : List DhtContact) (v6 : Bool) :
    (ofFamily (newest (ofFamily all false) ++ newest (ofFamily all true)) v6).length <=
    dhtContactMaxPerFamily := by
  have other (family : Bool) (differs : family ≠ v6) : ofFamily (newest (ofFamily all family)) v6 = [] := by
    refine filter_eq_nil_iff.mpr ?_
    intro contact within
    have own := (mem_filter.mp ((newest_subperm _).subset within)).2
    rw [beq_iff_eq.mp own, beq_iff_eq]
    exact differs
  have own (family : Bool) : (ofFamily (newest (ofFamily all family)) v6).length <= dhtContactMaxPerFamily :=
    Nat.le_trans (length_filter_le _ _) (length_newest _)
  rw [ofFamily_append]
  cases v6 with
  | false =>
    rw [other true (by decide), append_nil]
    exact own false
  | true =>
    rw [other false (by decide)]
    exact own true

variable {addr : SocketAddr} {addrStr : List UInt8} {familyOpt : Option (List UInt8)} {now : Nat}

theorem ofAddressFamily_eq (spelled : ∀ contact ∈ contacts, Spelled net contact) (v6 : Bool) :
    ofAddressFamily net contacts v6 = ofFamily contacts v6 := by
  refine filter_congr fun contact within => ?_
  rcases spelled contact within with ⟨addr, valid, _, labelled⟩
  rw [(filter_eq_some_iff.mp valid).1, labelled]
  rfl

theorem isV6Label_family (ip : IpAddr) : isV6Label ip.family = ip.isV6 := by
  cases ip <;> rfl

theorem isV6_newContact
    (labelled : familyOpt.all (fun family => family.isEmpty || isV6Label family == addr.ip.isV6) = true) :
    (newContact net formatTime addr familyOpt now).isV6 = addr.ip.isV6 := by
  rcases familyOpt with _ | _ | ⟨first, rest⟩
  · exact isV6Label_family addr.ip
  · exact isV6Label_family addr.ip
  · exact beq_iff_eq.mp labelled

theorem SoundContacts.few_labelled (sound : SoundContacts net contacts) (v6 : Bool) :
    (ofFamily contacts v6).length <= dhtContactMaxPerFamily :=
  ofAddressFamily_eq sound.spelled v6 ▸ sound.few v6

theorem SoundContacts.remember (sound : SoundContacts net contacts)
    (careful : CarefulContacts net contacts (.remember addrStr familyOpt now)) :
    SoundContacts net (rememberDhtContact net formatTime contacts addrStr familyOpt now) := by
  unfold rememberDhtContact
  split
  · exact sound
  rename_i addr valid
  have spelled (unknown : net.toText addr ∉ contacts.map DhtContact.addr) :
      Spelled net (newContact net formatTime addr familyOpt now) := by
    rcases filter_eq_some_iff.mp valid with ⟨parsed, usable⟩
    refine ⟨addr, ?_, rfl, isV6_newContact (careful addr valid unknown).1⟩
    exact filter_eq_some_iff.mpr ⟨net.parse_toText addrStr addr parsed, usable⟩
  have text : (newContact net formatTime addr familyOpt now).addr = net.toText addr := rfl
  generalize newContact net formatTime addr familyOpt now = contact at spelled text ⊢
  have less := families_subperm (listed contacts contact)
  suffices all : ((listed contacts contact).map DhtContact.addr).Nodup /\
      ∀ other ∈ listed contacts contact, Spelled net other by
    have kept := fun other within => all.2 other (less.subset within)
    refine ⟨?_, kept, fun v6 => ?_⟩
    · rcases less with ⟨part, same, within⟩
      exact (same.map _).nodup_iff.mp (all.1.sublist (within.map _))
    · rw [ofAddressFamily_eq kept]
      exact length_families _ v6
  rcases listed_cases contacts contact with ⟨unknown, same⟩ | ⟨index, old, _, _, same⟩
  · rw [same]
    constructor
    · rw [map_append]
      exact List.Nodup.append sound.once (nodup_singleton _) (disjoint_singleton.mpr unknown)
    · rw [text] at unknown
      exact forall_mem_append.mpr ⟨sound.spelled, forall_mem_singleton.mpr (spelled unknown)⟩
  · rw [same, map_modify_renew DhtContact.addr (fun _ => rfl)]
    refine ⟨sound.once, fun other within => ?_⟩
    rcases mem_iff_getElem?.mp within with ⟨position, there⟩
    rw [getElem?_modify, Option.map_eq_map, map_eq_some_iff] at there
    rcases there with ⟨before, found, equal⟩
    have spelled := sound.spelled before (mem_of_getElem? found)
    subst equal
    split <;> exact spelled

theorem SoundContacts.mem_remember (sound : SoundContacts net contacts)
    (careful : CarefulContacts net contacts (.remember addrStr familyOpt now))
    (valid : isValidPeerAddr net addrStr = some addr) : Exists fun contact : DhtContact =>
    contact ∈ rememberDhtContact net formatTime contacts addrStr familyOpt now /\
      contact.addr = net.toText addr /\ contact.expires = formatTime (now + dhtContactTtl) := by
  have room (unknown : net.toText addr ∉ contacts.map DhtContact.addr) :
      (ofFamily contacts (newContact net formatTime addr familyOpt now).isV6).length <
        dhtContactMaxPerFamily := by
    rcases careful addr valid unknown with ⟨labelled, fewer⟩
    rw [isV6_newContact labelled, <- ofAddressFamily_eq sound.spelled]
    exact fewer
  rw [rememberDhtContact, valid]
  dsimp only
  generalize known : newContact net formatTime addr familyOpt now = contact at room ⊢
  have text : contact.addr = net.toText addr := by rw [<- known]; rfl
  have time : contact.expires = formatTime (now + dhtContactTtl) := by rw [<- known]; rfl
  suffices all : Exists fun other : DhtContact => other ∈ listed contacts contact /\
      other.addr = contact.addr /\ other.expires = contact.expires /\
        (ofFamily (listed contacts contact) other.isV6).length <= dhtContactMaxPerFamily by
    rcases all with ⟨other, within, sameAddr, sameTime, few⟩
    refine ⟨other, ?_, sameAddr.trans text, sameTime.trans time⟩
    have own : other ∈ newest (ofFamily (listed contacts contact) other.isV6) :=
      (mem_newest few).mpr (mem_filter.mpr ⟨within, beq_self_eq_true _⟩)
    cases family : other.isV6 <;> rw [family] at own <;> simp [own]
  rcases listed_cases contacts contact with ⟨unknown, same⟩ | ⟨index, old, there, equal, same⟩
  · refine ⟨contact, ?_, rfl, rfl, ?_⟩ <;> rw [same]
    · simp
    · rw [ofFamily_append, length_append]
      have short : (ofFamily [contact] contact.isV6).length <= 1 := length_filter_le _ _
      have fewer := room (text ▸ unknown)
      omega
  · refine ⟨contact.renew old, ?_, equal, rfl, ?_⟩ <;> rw [same]
    · exact mem_iff_getElem?.mpr ⟨index, by simp [there]⟩
    · rw [length_ofFamily_modify]
      exact sound.few_labelled _

/-! ## Loading -/

structure Loading (net : AddrText) (kept : List DhtContact) : Prop where
  sound : SoundContacts net kept
  named : ∀ contact ∈ kept, Exists fun ip : IpAddr => contact.family = ip.family

theorem isV6_eq_iff (first second : IpAddr) {contact : DhtContact} (named : contact.family = first.family) :
    (contact.family == second.family) = (contact.isV6 == second.isV6) := by
  rw [DhtContact.isV6, named]
  cases first <;> cases second <;> rfl

theorem Loading.add {kept : List DhtContact} (loading : Loading net kept)
    (valid : isValidPeerAddr net contact.addr = some addr)
    (spelled : net.toText addr = contact.addr) (new : contact.addr ∉ kept.map DhtContact.addr)
    (room : ¬ dhtContactMaxPerFamily <= kept.countP (fun other => other.family == addr.ip.family)) :
    Loading net (kept ++ [{ contact with family := addr.ip.family }]) := by
  have counted : kept.countP (fun other => other.family == addr.ip.family) =
      (ofFamily kept addr.ip.isV6).length := by
    rw [ofFamily, <- countP_eq_length_filter]
    refine countP_congr fun other within => ?_
    rcases loading.named other within with ⟨ip, named⟩
    rw [isV6_eq_iff ip addr.ip named]
  have own : ({ contact with family := addr.ip.family } : DhtContact).isV6 = addr.ip.isV6 :=
    isV6Label_family addr.ip
  have spelledAll : ∀ other ∈ kept ++ [{ contact with family := addr.ip.family }], Spelled net other :=
    forall_mem_append.mpr ⟨loading.sound.spelled, forall_mem_singleton.mpr ⟨addr, valid, spelled, own⟩⟩
  refine ⟨⟨?_, spelledAll, ?_⟩, ?_⟩
  · rw [map_append]
    exact List.Nodup.append loading.sound.once (nodup_singleton _) (disjoint_singleton.mpr new)
  · intro v6
    rw [ofAddressFamily_eq spelledAll, ofFamily_append, length_append]
    have few := loading.sound.few_labelled v6
    by_cases same : addr.ip.isV6 = v6
    · have short : (ofFamily [{ contact with family := addr.ip.family }] v6).length <= 1 :=
        length_filter_le _ _
      rw [counted, same] at room
      omega
    · have none : ofFamily [{ contact with family := addr.ip.family }] v6 = [] := by
        rw [ofFamily, filter_eq_nil_iff]
        intro other within
        rw [mem_singleton.mp within, beq_iff_eq, own]
        exact same
      rw [none]
      exact few
  · exact forall_mem_append.mpr ⟨loading.named, forall_mem_singleton.mpr ⟨addr.ip, rfl⟩⟩

theorem Loading.run {saved kept : List DhtContact} (loading : Loading net kept)
    (once : (kept.map DhtContact.addr ++ (saved.filter (fun contact =>
      (isValidPeerAddr net contact.addr).isSome)).map DhtContact.addr).Nodup)
    (spelled : ∀ contact ∈ saved, ∀ addr ∈ isValidPeerAddr net contact.addr,
      net.toText addr = contact.addr) :
    Loading net (saved.foldl (loadContact net parseTime now) kept) := by
  induction saved generalizing kept with
  | nil => exact loading
  | cons contact rest ih =>
    have later : ∀ contact ∈ rest, ∀ addr ∈ isValidPeerAddr net contact.addr,
        net.toText addr = contact.addr :=
      fun contact within => spelled contact (mem_cons_of_mem _ within)
    have skipped : (kept.map DhtContact.addr ++ (rest.filter (fun contact =>
        (isValidPeerAddr net contact.addr).isSome)).map DhtContact.addr).Nodup :=
      once.sublist ((((sublist_cons_self _ _).filter _).map _).append_left _)
    rw [foldl_cons, loadContact]
    split
    · exact ih loading skipped later
    rename_i addr valid
    have listed : (contact :: rest).filter (fun contact =>
        (isValidPeerAddr net contact.addr).isSome) = contact :: rest.filter (fun contact =>
          (isValidPeerAddr net contact.addr).isSome) := by
      rw [filter_cons, if_pos (by rw [valid]; rfl)]
    rw [listed, map_cons, append_cons] at once
    split
    · exact ih loading skipped later
    case isFalse room =>
      split
      · split
        · refine ih (loading.add valid (spelled contact mem_cons_self addr valid) ?_ room) ?_ later
          · intro within
            exact (nodup_append.mp (nodup_append.mp once).1).2.2 _ within _ mem_cons_self rfl
          · rw [map_append]
            exact once
        · exact ih loading skipped later
      · exact ih loading skipped later

theorem soundContacts_nil : SoundContacts net [] :=
  ⟨nodup_nil, nofun, fun _ => Nat.zero_le _⟩

theorem SoundContacts.load (sound : SoundContacts net contacts) {file : Option (List DhtContact)}
    (careful : CarefulContacts net contacts (.load file now)) :
    SoundContacts net (loadContacts net parseTime contacts file now) := by
  unfold loadContacts
  split
  · exact sound
  rename_i saved
  have fresh : Loading net [] :=
    ⟨soundContacts_nil, nofun⟩
  exact (fresh.run (careful saved rfl).1 (careful saved rfl).2).sound

/-- In every run whose files list every address once, as it is written, and whose
new contacts find room in their family: no address is there twice, a family has no
more than 32 contacts, and a valid address that is remembered next, if it finds
room as well, is in the store with a new time. -/
theorem dht_contacts_kept {labels : List ContactLabel}
    (run : (contactMachine net formatTime parseTime).RunsTo (CarefulContacts net)
      labels contacts) : SoundContacts net contacts ∧
      forall addrStr familyOpt now addr, isValidPeerAddr net addrStr = some addr ->
        CarefulContacts net contacts (.remember addrStr familyOpt now) ->
        Exists fun contact : DhtContact =>
          contact ∈ rememberDhtContact net formatTime contacts addrStr familyOpt now ∧
            contact.addr = net.toText addr ∧
            contact.expires = formatTime (now + dhtContactTtl) := by
  have sound : SoundContacts net contacts := by
    refine run.stateInvariant ?_ ?_
    · rintro contacts rfl
      exact soundContacts_nil
    · intro contacts label after sound careful moved
      cases label with
      | load file now =>
        cases moved
        exact sound.load careful
      | remember addrStr familyOpt now =>
        cases moved
        exact sound.remember careful
  exact ⟨sound, fun _ _ _ _ valid careful => sound.mem_remember careful valid⟩

end

def lastByteText : AddrText where
  parse
    | [byte] => some ⟨.v4 (0x08080800 ||| byte.toBitVec.setWidth 32), 6881⟩
    | _ => none
  toText addr :=
    match addr.ip with
    | .v4 bits => [UInt8.ofBitVec (bits.setWidth 8)]
    | .v6 _ => []
  parse_toText := by
    intro text addr parsed
    split at parsed
    next byte =>
      cases parsed
      simp
    · cases parsed

instance (net : AddrText) (contacts : List DhtContact) :
    ∀ label, Decidable (CarefulContacts net contacts label)
  | .load file _ => inferInstanceAs (Decidable (∀ saved ∈ file, _ /\ ∀ contact ∈ saved, _))
  | .remember addrStr _ _ => inferInstanceAs (Decidable (∀ addr ∈ isValidPeerAddr net addrStr, _ -> _))

/-- A file with one contact is loaded, the contact is heard of again, and two more follow. -/
theorem dht_contacts_kept_first : Exists fun contacts => Exists fun labels : List ContactLabel =>
    (contactMachine lastByteText (fun _ => [1]) (fun _ => some 1)).RunsTo
      (CarefulContacts lastByteText) labels contacts ∧
    contacts.map DhtContact.addr = [[7], [8]] ∧ SoundContacts lastByteText contacts ∧
    Exists fun contact : DhtContact =>
      contact ∈ rememberDhtContact lastByteText (fun _ => [1]) contacts [9] none 0 ∧
        contact.addr = [9] ∧ contact.expires = [1] := by
  let labels : List ContactLabel :=
    [.load (some [⟨[7], [], [], []⟩]) 0, .remember [7] none 0, .remember [8] (some [105, 112, 118, 52]) 0]
  have run : (contactMachine lastByteText (fun _ => [1]) (fun _ => some 1)).RunsTo
      (CarefulContacts lastByteText) labels _ := .of_exec rfl (by decide +kernel) rfl
  rcases dht_contacts_kept run with ⟨sound, remembered⟩
  exact ⟨_, labels, run, rfl, sound,
    remembered [9] none 0 ⟨.v4 0x08080809, 6881⟩ (by decide) (by decide +kernel)⟩

/-- One contact after the other, all of one family. -/
def fullContacts : List DhtContact :=
  (List.range 32).foldl (fun contacts byte =>
    rememberDhtContact lastByteText (fun _ => [1]) contacts [UInt8.ofNat byte] none 0) []

/-- The contact after the 32nd is not in the store.  An address that a file lists
twice is in the store twice.  With a wrong label the 33rd stays, too. -/
theorem new_contact_cut_off : isValidPeerAddr lastByteText [32] = some ⟨.v4 0x08080820, 6881⟩ ∧
      [32] ∉ (rememberDhtContact lastByteText (fun _ => [1]) fullContacts [32] none 0).map DhtContact.addr ∧
      ((loadContacts lastByteText (fun _ => some 1) [] (some [⟨[7], [], [], []⟩, ⟨[7], [], [], []⟩])
        0).map DhtContact.addr) = [[7], [7]] ∧
      (ofAddressFamily lastByteText (rememberDhtContact lastByteText (fun _ => [1]) fullContacts [32]
        (some [105, 112, 118, 54]) 0) false).length = 33 := by
  decide +kernel

end TorrentPlayer.Storage
