import TorrentPlayer.Core.ChunkBits
import TorrentPlayer.Library.FiniteMaps
import Mathlib.Data.List.FinRange

namespace TorrentPlayer.Core

open Library FiniteMap AList

/-!
# The block table

The table records which blocks are on their way: the peer that was asked for a
block, when it was asked, and at most one peer that was asked for a second
copy.  The entries live in 32 shards, each behind its own lock.  A separate bit
set says which blocks have an owner, so that a scan for free blocks takes no
lock.

Every operation below is one section under a shard lock, together with the bit
operations made inside it.  The one exception is `clear`, whose bit operation
comes after the lock is released; its two halves are separate definitions.
-/

/-- A remote peer, as the scheduler identifies it. -/
abbrev PeerKey : Type :=
  Nat

abbrev Instant : Type :=
  Nat

/-- The peers that were asked for one block. -/
@[ext]
structure Hold where
  owner : Option (PeerKey × Instant) := none
  second : Option PeerKey := none
  deriving DecidableEq

variable {hold : Hold}

namespace Hold

def ownedBy (hold : Hold) (peer : PeerKey) : Bool :=
  hold.owner.any (fun owner => owner.1 == peer)

def setOwner (hold : Hold) (peer : PeerKey) (asked : Instant) : Hold :=
  { hold with owner := some (peer, asked) }

def setSecond (hold : Hold) (peer : PeerKey) : Hold :=
  { hold with second := some peer }

def dropOwner (hold : Hold) : Hold :=
  { hold with owner := none }

def dropSecond (hold : Hold) : Hold :=
  { hold with second := none }

/-- The entry that remains of a hold: none when nobody holds the block. -/
def kept (hold : Hold) : Option Hold :=
  if hold.owner.isSome || hold.second.isSome then some hold else none

/-- The hold without the shares of a peer that left. -/
def forget (hold : Hold) (peer : PeerKey) : Hold where
  owner := if hold.ownedBy peer then none else hold.owner
  second := if hold.second = some peer then none else hold.second

theorem kept_of_kept {found : Hold} (same : hold.kept = some found) : found.kept = some found := by
  rw [kept] at same
  split at same
  next named =>
    cases same
    rw [kept, if_pos named]
  · cases same

theorem ownedBy_forget (hold : Hold) (peer : PeerKey) : (hold.forget peer).ownedBy peer = false := by
  cases mine : hold.ownedBy peer with
  | true =>
    rw [forget, mine]
    rfl
  | false =>
    rw [forget, mine]
    exact mine

theorem ownedBy_of_forget {gone peer : PeerKey} (owns : (hold.forget gone).ownedBy peer = true) :
    hold.ownedBy peer = true := by
  rw [forget] at owns
  split at owns
  · cases owns
  · exact owns

theorem second_of_forget {gone peer : PeerKey} (copies : (hold.forget gone).second = some peer) :
    hold.second = some peer /\ gone ≠ peer := by
  simp only [forget] at copies
  split at copies
  · cases copies
  rename_i kept
  refine ⟨copies, ?_⟩
  rintro rfl
  exact kept copies

theorem forget_forget (hold : Hold) (peer : PeerKey) : (hold.forget peer).forget peer = hold.forget peer := by
  have owner : ((hold.forget peer).forget peer).owner = (hold.forget peer).owner := by
    rw [forget, ownedBy_forget]
    rfl
  have second : ((hold.forget peer).forget peer).second = (hold.forget peer).second := by
    by_cases mine : hold.second = some peer
    · simp [forget, mine]
    · simp [forget, mine]
  exact Hold.ext owner second

theorem kept_getD (hold : Hold) : hold.kept.getD {} = hold := by
  rcases hold with ⟨_ | _, _ | _⟩ <;> rfl

end Hold

def shardCount : Nat :=
  32

def shardOf (req : Nat) : Fin shardCount :=
  ⟨req % shardCount, Nat.mod_lt _ (by decide)⟩

structure BlockTable where
  shards : Fin shardCount -> FiniteMap Nat Hold
  placed : ∀ index req, req ∈ shards index -> shardOf req = index
  owned : ChunkBits
  writing : ChunkBits

namespace BlockTable

/-- The table before the torrent's size is known. -/
def new : BlockTable where
  shards := fun _ => ∅
  placed := fun _ req member => absurd member (notMem_empty req)
  owned := ChunkBits.new
  writing := ChunkBits.new

def init (table : BlockTable) (blocks : Nat) : BlockTable :=
  { table with owned := table.owned.init blocks, writing := table.writing.init blocks }

def withOwned (table : BlockTable) (owned : ChunkBits) : BlockTable :=
  { table with owned := owned }

variable (table : BlockTable) (owned : ChunkBits) (req other : Nat)

@[simp] theorem withOwned_owned : (table.withOwned owned).owned = owned :=
  rfl

def entry (table : BlockTable) (req : Nat) : Option Hold :=
  (table.shards (shardOf req)).lookup req

def setEntry (table : BlockTable) (req : Nat) (hold : Hold) : BlockTable where
  shards := Function.update table.shards (shardOf req)
    (AList.insert req hold (table.shards (shardOf req)))
  placed := by
    intro index other member
    by_cases same : index = shardOf req
    · subst same
      rw [Function.update_self, mem_insert] at member
      rcases member with equal | older
      · rw [equal]
      · exact table.placed _ _ older
    · rw [Function.update_of_ne same] at member
      exact table.placed _ _ member
  owned := table.owned
  writing := table.writing

def removeEntry (table : BlockTable) (req : Nat) : BlockTable where
  shards := Function.update table.shards (shardOf req)
    (AList.erase req (table.shards (shardOf req)))
  placed := by
    intro index other member
    by_cases same : index = shardOf req
    · subst same
      rw [Function.update_self, mem_erase] at member
      exact table.placed _ _ member.2
    · rw [Function.update_of_ne same] at member
      exact table.placed _ _ member
  owned := table.owned
  writing := table.writing

/-- Write back a hold that lost a share, or drop its entry. -/
def putBack (table : BlockTable) (req : Nat) (hold : Hold) : BlockTable :=
  match hold.kept with
  | some hold => table.setEntry req hold
  | none => table.removeEntry req

section
variable (hold : Hold)

@[simp] theorem setEntry_owned : (table.setEntry req hold).owned = table.owned :=
  rfl

@[simp] theorem removeEntry_owned : (table.removeEntry req).owned = table.owned :=
  rfl

@[simp] theorem putBack_owned : (table.putBack req hold).owned = table.owned := by
  rw [putBack]
  split <;> rfl

@[simp] theorem putBack_writing : (table.putBack req hold).writing = table.writing := by
  rw [putBack]
  split <;> rfl

private theorem lookup_update (changed : FiniteMap Nat Hold)
    (others : ∀ key, req ≠ key -> changed.lookup key = (table.shards (shardOf req)).lookup key) :
    (Function.update table.shards (shardOf req) changed (shardOf other)).lookup other =
      if req = other then changed.lookup req else table.entry other := by
  by_cases same : req = other
  · subst same
    rw [if_pos rfl, Function.update_self]
  · rw [if_neg same]
    by_cases shard : shardOf other = shardOf req
    · rw [shard, Function.update_self, others other same, <- shard, entry]
    · rw [Function.update_of_ne shard, entry]

theorem entry_setEntry (other : Nat) : (table.setEntry req hold).entry other =
    if req = other then some hold else table.entry other := by
  refine (lookup_update table req other _ fun key different => ?_).trans ?_
  · rw [lookup_insert_eq, if_neg different]
  · rw [lookup_insert]

theorem entry_removeEntry :
    (table.removeEntry req).entry other = if req = other then none else table.entry other := by
  refine (lookup_update table req other _ fun key different => ?_).trans ?_
  · rw [lookup_erase_eq, if_neg different]
  · rw [lookup_erase]

theorem entry_putBack (other : Nat) : (table.putBack req hold).entry other =
    if req = other then hold.kept else table.entry other := by
  rw [putBack]
  cases kept : hold.kept with
  | none => exact entry_removeEntry table req other
  | some hold => exact entry_setEntry table req hold other

end

def isOwned (table : BlockTable) (req : Nat) : Bool :=
  table.owned.contains req

def isWriting (table : BlockTable) (req : Nat) : Bool :=
  table.writing.contains req

/-- True for the one caller allowed to write this block. -/
def beginWrite (table : BlockTable) (req : Nat) : Bool × BlockTable :=
  ((table.writing.insertNew req).1, { table with writing := (table.writing.insertNew req).2 })

def endWrite (table : BlockTable) (req : Nat) : BlockTable :=
  { table with writing := table.writing.remove req }

def get (table : BlockTable) (req : Nat) : Hold :=
  (table.entry req).getD {}

def owner (table : BlockTable) (req : Nat) : Option (PeerKey × Instant) :=
  if table.isOwned req then (table.get req).owner else none

def second (table : BlockTable) (req : Nat) : Option PeerKey :=
  (table.get req).second

/-- Become the owner unless another peer is. -/
def claim (table : BlockTable) (req : Nat) (peer : PeerKey) (asked : Instant) : Bool × BlockTable :=
  if (table.get req).owner.any (fun owner => owner.1 != peer) then
    (false, table.setEntry req (table.get req))
  else
    (true, (table.setEntry req ((table.get req).setOwner peer asked)).withOwned (table.owned.insert req))

def release (table : BlockTable) (req : Nat) (peer : PeerKey) : BlockTable :=
  match table.entry req with
  | none => table
  | some hold =>
    if hold.ownedBy peer then
      (table.putBack req hold.dropOwner).withOwned (table.owned.remove req)
    else table

def clearOwner (table : BlockTable) (req : Nat) : BlockTable :=
  match table.entry req with
  | none => table
  | some hold =>
    (table.putBack req hold.dropOwner).withOwned (table.owned.remove req)

def claimSecond (table : BlockTable) (req : Nat) (peer : PeerKey) : Bool × BlockTable :=
  if (table.get req).second.isSome then (false, table.setEntry req (table.get req))
  else (true, table.setEntry req ((table.get req).setSecond peer))

def clearSecond (table : BlockTable) (req : Nat) : BlockTable :=
  match table.entry req with
  | none => table
  | some hold => table.putBack req hold.dropSecond

def releaseSecond (table : BlockTable) (req : Nat) (peer : PeerKey) : BlockTable :=
  match table.entry req with
  | none => table
  | some hold =>
    if hold.second = some peer then table.putBack req hold.dropSecond else table

/-- The locked half of `clear`. -/
def clearEntry (table : BlockTable) (req : Nat) : BlockTable :=
  table.removeEntry req

/-- The half of `clear` that runs after its lock is released. -/
def clearBit (table : BlockTable) (req : Nat) : BlockTable :=
  table.withOwned (table.owned.remove req)

/-- The block is done: nobody holds it now. -/
def clear (table : BlockTable) (req : Nat) : BlockTable :=
  (table.clearEntry req).clearBit req

/-- Whether `peer` still owns or copies this block. -/
def holds (table : BlockTable) (req : Nat) (peer : PeerKey) : Bool :=
  (table.get req).second == some peer || (table.get req).ownedBy peer

/-- One shard's turn of `forgetPeer`. -/
def forgetShard (table : BlockTable) (index : Fin shardCount) (peer : PeerKey) : BlockTable where
  shards := Function.update table.shards index
    ((table.shards index).retain (fun _ hold => (hold.forget peer).kept))
  placed := by
    intro other req member
    by_cases same : other = index
    · subst same
      rw [Function.update_self, ← lookup_isSome, lookup_retain] at member
      apply table.placed
      rw [← lookup_isSome]
      exact Option.isSome_of_isSome_bind member
    · rw [Function.update_of_ne same] at member
      exact table.placed _ _ member
  owned := (table.shards index).entries.foldl
    (fun owned entry => if entry.2.ownedBy peer then owned.remove entry.1 else owned) table.owned
  writing := table.writing

/-- A peer left: hand back everything it held, shard by shard. -/
def forgetPeer (table : BlockTable) (peer : PeerKey) : BlockTable :=
  (List.finRange shardCount).foldl (fun table index => table.forgetShard index peer) table

/-! ## What the operations do to the holds -/

theorem get_setEntry (hold : Hold) (other : Nat) :
    (table.setEntry req hold).get other = if req = other then hold else table.get other := by
  rw [get, entry_setEntry]
  split <;> rfl

theorem get_removeEntry :
    (table.removeEntry req).get other = if req = other then {} else table.get other := by
  rw [get, entry_removeEntry]
  split <;> rfl

theorem get_putBack (hold : Hold) (other : Nat) :
    (table.putBack req hold).get other = if req = other then hold else table.get other := by
  rw [get, entry_putBack]
  split
  · exact hold.kept_getD
  · rfl

@[simp] theorem get_withOwned : (table.withOwned owned).get req = table.get req :=
  rfl

variable {table : BlockTable}

theorem get_eq_of_entry {req : Nat} (found : table.entry req = some hold) : table.get req = hold := by
  rw [get, found, Option.getD_some]

theorem get_eq_of_entry_none {req : Nat} (missing : table.entry req = none) : table.get req = {} := by
  rw [get, missing, Option.getD_none]

section
variable (table : BlockTable) (req : Nat) (peer : PeerKey)

/-- A claim fails exactly when another peer owns the block, and then changes no hold. -/
theorem claim_cases (asked : Instant) : ((table.get req).owner.any (fun owner => owner.1 != peer) = true /\
      table.claim req peer asked = (false, table.setEntry req (table.get req))) \/
    ((table.get req).owner.any (fun owner => owner.1 != peer) = false /\ table.claim req peer asked =
      (true, (table.setEntry req ((table.get req).setOwner peer asked)).withOwned
        (table.owned.insert req))) := by
  cases taken : (table.get req).owner.any (fun owner => owner.1 != peer) with
  | true => exact .inl ⟨rfl, by rw [claim, if_pos taken]⟩
  | false => exact .inr ⟨rfl, by rw [claim, if_neg (by simp [taken])]⟩

theorem claimSecond_cases : ((table.get req).second.isSome = true /\ table.claimSecond req peer =
      (false, table.setEntry req (table.get req))) \/ ((table.get req).second = none /\
      table.claimSecond req peer = (true, table.setEntry req ((table.get req).setSecond peer))) := by
  cases taken : (table.get req).second with
  | some => exact .inl ⟨rfl, by rw [claimSecond, taken]; rfl⟩
  | none => exact .inr ⟨rfl, by rw [claimSecond, taken]; rfl⟩

theorem setEntry_get_get (req other : Nat) :
    (table.setEntry req (table.get req)).get other = table.get other := by
  rw [get_setEntry]
  split
  next same => rw [same]
  · rfl

theorem get_release (other : Nat) : (table.release req peer).get other = if req = other /\
    (table.get req).ownedBy peer = true then (table.get req).dropOwner else table.get other := by
  rw [release]
  cases found : table.entry req with
  | none => simp [get_eq_of_entry_none found, Hold.ownedBy]
  | some hold =>
    rw [get_eq_of_entry found]
    by_cases mine : hold.ownedBy peer = true
    · simp only [mine, if_true, and_true, get_withOwned, get_putBack]
    · simp [mine]

theorem owned_release : (table.release req peer).owned =
    if (table.get req).ownedBy peer then table.owned.remove req else table.owned := by
  rw [release]
  cases found : table.entry req with
  | none => simp [get_eq_of_entry_none found, Hold.ownedBy]
  | some hold =>
    rw [get_eq_of_entry found]
    cases mine : hold.ownedBy peer <;> simp [mine]

theorem get_clearOwner (req other : Nat) : (table.clearOwner req).get other =
    if req = other then (table.get req).dropOwner else table.get other := by
  rw [clearOwner]
  cases found : table.entry req with
  | none =>
    rw [get_eq_of_entry_none found]
    by_cases same : req = other
    · rw [if_pos same, <- same]
      exact get_eq_of_entry_none found
    · rw [if_neg same]
  | some =>
    rw [get_eq_of_entry found]
    exact get_putBack table req _ other

theorem owned_clearOwner : (table.clearOwner req).owned =
    if (table.entry req).isSome then table.owned.remove req else table.owned := by
  rw [clearOwner]
  cases table.entry req <;> rfl

theorem get_clearSecond (req other : Nat) : (table.clearSecond req).get other =
    if req = other then (table.get req).dropSecond else table.get other := by
  rw [clearSecond]
  cases found : table.entry req with
  | none =>
    rw [get_eq_of_entry_none found]
    by_cases same : req = other
    · rw [if_pos same, <- same]
      exact get_eq_of_entry_none found
    · rw [if_neg same]
  | some =>
    rw [get_eq_of_entry found]
    exact get_putBack table req _ other

@[simp] theorem owned_clearSecond : (table.clearSecond req).owned = table.owned := by
  rw [clearSecond]
  cases table.entry req <;> simp

theorem get_releaseSecond (other : Nat) : (table.releaseSecond req peer).get other = if req = other /\
    (table.get req).second = some peer then (table.get req).dropSecond else table.get other := by
  rw [releaseSecond]
  cases found : table.entry req with
  | none => simp [get_eq_of_entry_none found]
  | some hold =>
    rw [get_eq_of_entry found]
    by_cases mine : hold.second = some peer
    · simp only [mine, if_true, and_true, get_putBack]
    · simp [mine]

@[simp] theorem owned_releaseSecond : (table.releaseSecond req peer).owned = table.owned := by
  rw [releaseSecond]
  cases table.entry req with
  | none => rfl
  | some hold => by_cases mine : hold.second = some peer <;> simp [mine]

section
variable (index : Fin shardCount)

theorem entry_forgetShard (peer : PeerKey) (req : Nat) : (table.forgetShard index peer).entry req =
    if shardOf req = index then (table.entry req).bind (fun hold => (hold.forget peer).kept)
    else table.entry req := by
  by_cases same : shardOf req = index
  · simp only [entry, forgetShard, same, Function.update_self, lookup_retain, if_true]
  rw [if_neg same]
  simp only [entry, forgetShard, Function.update_of_ne same]

theorem get_forgetShard (peer : PeerKey) (req : Nat) : (table.forgetShard index peer).get req =
    if shardOf req = index then (table.get req).forget peer else table.get req := by
  rw [get, entry_forgetShard, get]
  by_cases same : shardOf req = index
  · rw [if_pos same, if_pos same]
    cases table.entry req with
    | none => rfl
    | some hold => exact (hold.forget peer).kept_getD
  · rw [if_neg same, if_neg same]

private theorem contains_forgetBits (peer : PeerKey) (req : Nat) :
    ∀ (entries : List (Sigma fun _ : Nat => Hold)) (owned : ChunkBits), (entries.foldl (fun owned entry =>
        if entry.2.ownedBy peer then owned.remove entry.1 else owned) owned).contains req =
        (owned.contains req && !(entries.any (fun entry => entry.1 == req && entry.2.ownedBy peer)))
  | [], owned => by simp
  | ⟨key, hold⟩ :: entries, owned => by
      rw [List.foldl_cons, contains_forgetBits peer req entries, List.any_cons]
      cases hold.ownedBy peer with
      | true =>
        rw [if_pos rfl, ChunkBits.contains_remove]
        simp only [Bool.and_true, Bool.not_or, bne, Bool.and_assoc]
      | false => simp

theorem contains_owned_forgetShard
    (peer : PeerKey) (req : Nat) : (table.forgetShard index peer).owned.contains req =
    (table.owned.contains req && !(decide (shardOf req = index) && (table.get req).ownedBy peer)) := by
  rw [forgetShard, contains_forgetBits]
  congr 2
  rw [Bool.eq_iff_iff, List.any_eq_true]
  simp only [Bool.and_eq_true, beq_iff_eq, decide_eq_true_eq]
  constructor
  · rintro ⟨⟨key, hold⟩, member, rfl, mine⟩
    have found := (mem_entries_iff _ key hold).mp member
    have shard : shardOf key = index := by
      apply table.placed
      rw [<- lookup_isSome, found]
      rfl
    refine ⟨shard, ?_⟩
    rw [get, entry, shard, found]
    exact mine
  · rintro ⟨shard, mine⟩
    cases found : table.entry req with
    | none =>
      rw [get_eq_of_entry_none found] at mine
      simp [Hold.ownedBy] at mine
    | some hold =>
      rw [get_eq_of_entry found] at mine
      rw [entry, shard] at found
      exact ⟨⟨req, hold⟩, (mem_entries_iff _ req hold).mpr found, rfl, mine⟩

end

theorem forgetPeer_get (req : Nat) : (table.forgetPeer peer).get req = (table.get req).forget peer := by
  have walk : ∀ (indices : List (Fin shardCount)) (table : BlockTable),
      (indices.foldl (fun table index => table.forgetShard index peer) table).get req =
        if shardOf req ∈ indices then (table.get req).forget peer else table.get req := by
    intro indices
    induction indices with
    | nil => simp
    | cons index indices ih =>
      intro table
      rw [List.foldl_cons, ih, get_forgetShard]
      by_cases here : shardOf req = index
      · rw [if_pos here, if_pos (List.mem_cons.mpr (Or.inl here)), Hold.forget_forget, ite_self]
      have tail : shardOf req ∈ index :: indices <-> shardOf req ∈ indices := by simp [here]
      simp only [if_neg here, tail]
  rw [forgetPeer, walk, if_pos (List.mem_finRange _)]

theorem contains_owned_forgetPeer (req : Nat) : (table.forgetPeer peer).owned.contains req =
    (table.owned.contains req && !(table.get req).ownedBy peer) := by
  have walk : ∀ (indices : List (Fin shardCount)) (table : BlockTable),
      (indices.foldl (fun table index => table.forgetShard index peer) table).owned.contains req =
        (table.owned.contains req && !(decide (shardOf req ∈ indices) && (table.get req).ownedBy peer)) := by
    intro indices
    induction indices with
    | nil => simp
    | cons index indices ih =>
      intro table
      rw [List.foldl_cons, ih, get_forgetShard, contains_owned_forgetShard]
      by_cases here : shardOf req = index
      · simp [here, Hold.ownedBy_forget]
      · simp [here]
  rw [forgetPeer, walk]
  simp

@[simp] theorem covers_owned_claim (asked : Instant) (other : Nat) :
    (table.claim req peer asked).2.owned.covers other = table.owned.covers other := by
  rcases table.claim_cases req peer asked with ⟨_, equal⟩ | ⟨_, equal⟩ <;> simp [equal]

@[simp] theorem owned_claimSecond : (table.claimSecond req peer).2.owned = table.owned := by
  rcases table.claimSecond_cases req peer with ⟨_, equal⟩ | ⟨_, equal⟩ <;> simp [equal]

@[simp] theorem covers_owned_release
    (other : Nat) : (table.release req peer).owned.covers other = table.owned.covers other := by
  rw [owned_release]
  split <;> simp

@[simp] theorem covers_owned_clearOwner (req other : Nat) :
    (table.clearOwner req).owned.covers other = table.owned.covers other := by
  rw [owned_clearOwner]
  split <;> simp

@[simp] theorem covers_owned_forgetShard (index : Fin shardCount) (peer : PeerKey) (other : Nat) :
    (table.forgetShard index peer).owned.covers other = table.owned.covers other := by
  rw [forgetShard]
  generalize (table.shards index).entries = entries
  generalize table.owned = owned
  induction entries generalizing owned with
  | nil => rfl
  | cons entry entries ih =>
    rw [List.foldl_cons, ih]
    split <;> simp

@[simp] theorem writing_claim (asked : Instant) : (table.claim req peer asked).2.writing = table.writing := by
  rw [claim]
  split <;> rfl

@[simp] theorem writing_claimSecond : (table.claimSecond req peer).2.writing = table.writing := by
  rw [claimSecond]
  split <;> rfl

@[simp] theorem writing_release : (table.release req peer).writing = table.writing := by
  rw [release]
  split
  · rfl
  split
  · exact putBack_writing ..
  · rfl

@[simp] theorem writing_clearOwner : (table.clearOwner req).writing = table.writing := by
  rw [clearOwner]
  split
  · rfl
  · exact putBack_writing ..

@[simp] theorem writing_clearSecond : (table.clearSecond req).writing = table.writing := by
  rw [clearSecond]
  split
  · rfl
  · exact putBack_writing ..

@[simp] theorem writing_releaseSecond : (table.releaseSecond req peer).writing = table.writing := by
  rw [releaseSecond]
  split
  · rfl
  split
  · exact putBack_writing ..
  · rfl

@[simp] theorem writing_clear : (table.clear req).writing = table.writing :=
  rfl

@[simp] theorem writing_forgetPeer (peer : PeerKey) : (table.forgetPeer peer).writing = table.writing := by
  rw [forgetPeer]
  generalize List.finRange shardCount = indices
  induction indices generalizing table with
  | nil => rfl
  | cons index indices ih =>
    rw [List.foldl_cons, ih]
    rfl

end

/-- Every entry names an owner or a second copy. -/
def Tidy (table : BlockTable) : Prop :=
  ∀ req hold, table.entry req = some hold -> hold.kept = some hold

section
variable (tidy : table.Tidy)
include tidy

section
variable (req : Nat)

theorem tidy_setEntry (named : hold.kept = some hold) : (table.setEntry req hold).Tidy := by
  intro other found entry_eq
  rw [entry_setEntry] at entry_eq
  split at entry_eq
  · cases entry_eq
    exact named
  · exact tidy other found entry_eq

theorem tidy_removeEntry : (table.removeEntry req).Tidy := by
  intro other found entry_eq
  rw [entry_removeEntry] at entry_eq
  split at entry_eq
  · cases entry_eq
  · exact tidy other found entry_eq

theorem tidy_putBack (hold : Hold) : (table.putBack req hold).Tidy := by
  rw [putBack]
  split
  next kept same => exact tidy_setEntry tidy req (Hold.kept_of_kept same)
  · exact tidy_removeEntry tidy req

variable (peer : PeerKey)

theorem tidy_claim (asked : Instant) : (table.claim req peer asked).2.Tidy := by
  rcases table.claim_cases req peer asked with ⟨taken, equal⟩ | ⟨_, equal⟩
  · rw [equal]
    apply tidy_setEntry tidy
    -- The claim was refused, so the entry it may have created names that owner.
    cases held : (table.get req).owner with
    | none => simp [held] at taken
    | some => simp [Hold.kept, held]
  · rw [equal]
    exact tidy_setEntry tidy req (by simp [Hold.kept, Hold.setOwner])

theorem tidy_claimSecond : (table.claimSecond req peer).2.Tidy := by
  rcases table.claimSecond_cases req peer with ⟨taken, equal⟩ | ⟨_, equal⟩
  · rw [equal]
    exact tidy_setEntry tidy req (by simp [Hold.kept, taken])
  · rw [equal]
    exact tidy_setEntry tidy req (by simp [Hold.kept, Hold.setSecond])

theorem tidy_release : (table.release req peer).Tidy := by
  rw [release]
  split
  · exact tidy
  split
  · exact tidy_putBack tidy req _
  · exact tidy

theorem tidy_clearOwner : (table.clearOwner req).Tidy := by
  rw [clearOwner]
  split
  · exact tidy
  · exact tidy_putBack tidy req _

theorem tidy_clearSecond : (table.clearSecond req).Tidy := by
  rw [clearSecond]
  split
  · exact tidy
  · exact tidy_putBack tidy req _

theorem tidy_releaseSecond : (table.releaseSecond req peer).Tidy := by
  rw [releaseSecond]
  split
  · exact tidy
  split
  · exact tidy_putBack tidy req _
  · exact tidy

end

theorem tidy_forgetShard (index : Fin shardCount) (peer : PeerKey) : (table.forgetShard index peer).Tidy := by
  intro req found entry_eq
  rw [entry_forgetShard] at entry_eq
  split at entry_eq
  · obtain ⟨_, _, kept⟩ := Option.bind_eq_some_iff.mp entry_eq
    exact Hold.kept_of_kept kept
  · exact tidy req found entry_eq

end
end BlockTable
end TorrentPlayer.Core
