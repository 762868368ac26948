import TorrentPlayer.Core.BlockTable

namespace TorrentPlayer.Core

open Library ChunkBits Hold

/-!
# Shares of the blocks

What the operations of the block table do to the shares of the peers, as far as
a peer cares: an operation takes shares away, or gives one block to one peer.
The owned bits follow the owners, so that the owner a handler sees is the owner
in the table.
-/

variable {peer : PeerKey}

namespace Hold

/-- A hold without some of the shares of another one. -/
structure Below (small big : Hold) : Prop where
  owner : small.owner = none ∨ small.owner = big.owner
  second : small.second = none ∨ small.second = big.second

variable (hold : Hold) {small big : Hold}

theorem Below.refl : hold.Below hold :=
  ⟨Or.inr rfl, Or.inr rfl⟩

theorem below_dropOwner : hold.dropOwner.Below hold :=
  ⟨Or.inl rfl, Or.inr rfl⟩

theorem below_dropSecond : hold.dropSecond.Below hold :=
  ⟨Or.inr rfl, Or.inl rfl⟩

theorem below_empty : Below {} hold :=
  ⟨Or.inl rfl, Or.inl rfl⟩

theorem below_forget (peer : PeerKey) : (hold.forget peer).Below hold where
  owner := by exact ite_eq_or_eq ..
  second := by exact ite_eq_or_eq ..

theorem Below.ownedBy (below : small.Below big)
    (mine : small.ownedBy peer = true) : big.ownedBy peer = true := by
  rw [Hold.ownedBy] at mine ⊢
  rcases below.owner with none | same
  · rw [none] at mine
    cases mine
  · rw [<- same]
    exact mine

theorem Below.second_eq (below : small.Below big)
    (mine : small.second = some peer) : big.second = some peer := by
  rcases below.second with none | same
  · rw [none] at mine
    cases mine
  · rw [<- same]
    exact mine

end Hold

namespace BlockTable

/-! ## Who holds a block -/

variable (table : BlockTable) (req : Nat)

theorem holds_iff (peer : PeerKey) : table.holds req peer = true <->
    (table.get req).ownedBy peer = true \/ (table.get req).second = some peer := by
  rw [holds, Bool.or_eq_true, beq_iff_eq, or_comm]

/-- Every owner is visible in the owned bits. -/
def Marked (table : BlockTable) : Prop :=
  ∀ req, (table.get req).owner.isSome = true -> table.owned.contains req = true

/-- A change of the table that gives nobody a block except as `gained` says. -/
structure Within (gained : Nat -> PeerKey -> Prop) (before after : BlockTable) : Prop where
  owner : ∀ req peer, (after.get req).ownedBy peer = true ->
    (before.get req).ownedBy peer = true ∨ gained req peer
  second : ∀ req peer, (after.get req).second = some peer ->
    (before.get req).second = some peer ∨ gained req peer
  marked : before.Marked -> after.Marked
  wordCount : after.owned.wordCount = before.owned.wordCount

/-- A change that gives nobody a block. -/
abbrev Shrinks (before after : BlockTable) : Prop :=
  Within (fun _ _ => False) before after

namespace Within

variable {gained : Nat -> PeerKey -> Prop} {first second third : BlockTable}

theorem refl (table : BlockTable) : Within gained table table :=
  ⟨fun _ _ => Or.inl, fun _ _ => Or.inl, id, rfl⟩

theorem trans (earlier : Within gained first second) (later : Within gained second third) :
    Within gained first third where
  owner := by
    intro req peer held
    rcases later.owner req peer held with held | new
    · exact earlier.owner req peer held
    · exact .inr new
  second := by
    intro req peer held
    rcases later.second req peer held with held | new
    · exact earlier.second req peer held
    · exact .inr new
  marked := fun marked => later.marked (earlier.marked marked)
  wordCount := later.wordCount.trans earlier.wordCount

theorem mono {allowed : Nat -> PeerKey -> Prop} (change : Within gained first second)
    (weaker : ∀ req peer, gained req peer -> allowed req peer) :
    Within allowed first second where
  owner := fun req peer held => (change.owner req peer held).imp_right (weaker req peer)
  second := fun req peer held => (change.second req peer held).imp_right (weaker req peer)
  marked := change.marked
  wordCount := change.wordCount

end Within

/-- A change that only takes shares away, and whose bits keep up with it. -/
theorem shrinks_of_below {first second : BlockTable} (below : ∀ req, (second.get req).Below (first.get req))
    (bits : ∀ req, (second.get req).owner.isSome = true ->
      first.owned.contains req = true -> second.owned.contains req = true)
    (wordCount : second.owned.wordCount = first.owned.wordCount) : Shrinks first second where
  owner := fun req _ held => Or.inl ((below req).ownedBy held)
  second := fun req _ held => Or.inl ((below req).second_eq held)
  marked := by
    intro marked req named
    apply bits req named
    apply marked req
    rcases (below req).owner with none | same
    · rw [none] at named
      cases named
    · rw [<- same]
      exact named
  wordCount := wordCount

section
variable (peer : PeerKey)

theorem shrinks_release : Shrinks table (table.release req peer) := by
  apply shrinks_of_below
  · intro other
    rw [get_release]
    split
    next mine =>
      rw [<- mine.1]
      exact below_dropOwner _
    · exact .refl _
  · intro other named held
    rw [get_release] at named
    rw [owned_release]
    split
    next mine =>
      have different : req ≠ other := by
        rintro rfl
        rw [if_pos ⟨rfl, mine⟩] at named
        cases named
      simp [contains_remove, held, different]
    · exact held
  · rw [owned_release]
    split
    · exact wordCount_remove ..
    · rfl

theorem shrinks_clearOwner : Shrinks table (table.clearOwner req) := by
  apply shrinks_of_below
  · intro other
    rw [get_clearOwner]
    split
    next same =>
      rw [same]
      exact below_dropOwner _
    · exact .refl _
  · intro other named held
    rw [get_clearOwner] at named
    split at named
    · cases named
    rename_i different
    rw [owned_clearOwner]
    split
    · simp [contains_remove, held, different]
    · exact held
  · rw [owned_clearOwner]
    split
    · exact wordCount_remove ..
    · rfl

theorem shrinks_clearSecond : Shrinks table (table.clearSecond req) := by
  apply shrinks_of_below
  · intro other
    rw [get_clearSecond]
    split
    next same =>
      rw [same]
      exact below_dropSecond _
    · exact .refl _
  · intro other _ held
    rw [owned_clearSecond]
    exact held
  · rw [owned_clearSecond]

theorem shrinks_releaseSecond : Shrinks table (table.releaseSecond req peer) := by
  apply shrinks_of_below
  · intro other
    rw [get_releaseSecond]
    split
    next mine =>
      rw [<- mine.1]
      exact below_dropSecond _
    · exact .refl _
  · intro other _ held
    rw [owned_releaseSecond]
    exact held
  · rw [owned_releaseSecond]

theorem get_clear (other : Nat) : (table.clear req).get other = if req = other then {} else table.get other :=
  get_removeEntry table req other

theorem shrinks_clear : Shrinks table (table.clear req) := by
  apply shrinks_of_below
  · intro other
    rw [get_clear]
    split
    · exact below_empty _
    · exact .refl _
  · intro other named held
    rw [get_clear] at named
    split at named
    · cases named
    next different =>
      show (table.owned.remove req).contains other = true
      simp [contains_remove, held, different]
  · exact wordCount_remove ..

@[simp] theorem wordCount_owned_forgetShard (index : Fin shardCount)
    (peer : PeerKey) : (table.forgetShard index peer).owned.wordCount = table.owned.wordCount := by
  rw [forgetShard]
  generalize (table.shards index).entries = entries
  generalize table.owned = owned
  induction entries generalizing owned with
  | nil => rfl
  | cons entry entries ih =>
    rw [List.foldl_cons, ih]
    split
    · exact wordCount_remove ..
    · rfl

theorem wordCount_owned_forgetPeer : (table.forgetPeer peer).owned.wordCount = table.owned.wordCount := by
  rw [forgetPeer]
  generalize List.finRange shardCount = indices
  induction indices generalizing table with
  | nil => rfl
  | cons index indices ih => rw [List.foldl_cons, ih, wordCount_owned_forgetShard]

theorem shrinks_forgetPeer : Shrinks table (table.forgetPeer peer) := by
  apply shrinks_of_below
  · intro req
    rw [forgetPeer_get]
    exact below_forget _ peer
  · intro req named held
    rw [forgetPeer_get, forget] at named
    rw [contains_owned_forgetPeer, held]
    cases mine : (table.get req).ownedBy peer with
    | false => rfl
    | true =>
      rw [mine] at named
      cases named
  · exact wordCount_owned_forgetPeer table peer

theorem not_holds_forgetPeer (req : Nat) : (table.forgetPeer peer).holds req peer = false := by
  rw [<- Bool.not_eq_true, holds_iff, forgetPeer_get, ownedBy_forget]
  rintro (mine | copies)
  · cases mine
  · exact (second_of_forget copies).2 rfl

theorem not_holds_clear : (table.clear req).holds req peer = false := by
  rw [holds, get_clear, if_pos rfl]
  rfl

theorem second_release (other : Nat) :
    ((table.release req peer).get other).second = (table.get other).second := by
  rw [get_release]
  split
  next mine =>
    rw [mine.1]
    rfl
  · rfl

theorem owner_releaseSecond (other : Nat) :
    ((table.releaseSecond req peer).get other).owner = (table.get other).owner := by
  rw [get_releaseSecond]
  split
  next mine =>
    rw [mine.1]
    rfl
  · rfl

theorem not_ownedBy_release : ((table.release req peer).get req).ownedBy peer = false := by
  rw [get_release]
  cases mine : (table.get req).ownedBy peer with
  | true => simp [ownedBy, dropOwner]
  | false => simp [mine]

theorem second_releaseSecond_ne : ((table.releaseSecond req peer).get req).second ≠ some peer := by
  rw [get_releaseSecond]
  split
  · nofun
  next other =>
    intro copies
    exact other ⟨rfl, copies⟩

theorem not_holds_iff : table.holds req peer = false <->
    (table.get req).ownedBy peer = false /\ (table.get req).second ≠ some peer := by
  rw [<- Bool.not_eq_true, holds_iff, not_or, Bool.not_eq_true]

theorem not_holds_release_releaseSecond :
    ((table.release req peer).releaseSecond req peer).holds req peer = false := by
  rw [not_holds_iff]
  constructor
  · rw [ownedBy, owner_releaseSecond]
    exact not_ownedBy_release table req peer
  · exact second_releaseSecond_ne _ req peer

theorem not_holds_releaseSecond_release :
    ((table.releaseSecond req peer).release req peer).holds req peer = false := by
  rw [not_holds_iff]
  constructor
  · exact not_ownedBy_release _ req peer
  rw [second_release]
  exact second_releaseSecond_ne table req peer

end

variable {table : BlockTable} {req : Nat}

theorem ownedBy_of_marked (marked : table.Marked)
    (mine : (table.get req).ownedBy peer = true) : (table.owner req).map Prod.fst = some peer := by
  rw [ownedBy] at mine
  cases held : (table.get req).owner with
  | none =>
    rw [held] at mine
    cases mine
  | some holder =>
    have visible := marked req (by rw [held]; rfl)
    rw [held] at mine
    rw [owner, isOwned, visible, held]
    exact congrArg some (beq_iff_eq.mp mine)

/-! ## Claims -/

/-- The one share that a claim can give. -/
def Gains (req : Nat) (peer : PeerKey) (other : Nat) (holder : PeerKey) : Prop :=
  other = req /\ holder = peer

theorem shrinks_setEntry_get (table : BlockTable) (req : Nat) :
    Shrinks table (table.setEntry req (table.get req)) := by
  apply shrinks_of_below
  · intro other
    rw [setEntry_get_get]
    exact .refl _
  · exact fun _ _ held => held
  · rfl

theorem shrinks_claim_refused {asked : Instant} (lost : (table.claim req peer asked).1 = false) :
    Shrinks table (table.claim req peer asked).2 := by
  rcases table.claim_cases req peer asked with ⟨_, equal⟩ | ⟨_, equal⟩
  · rw [equal]
    exact shrinks_setEntry_get table req
  · rw [equal] at lost
    cases lost

theorem within_claim (covered : table.owned.covers req = true) (peer : PeerKey)
    (asked : Instant) : Within (Gains req peer) table (table.claim req peer asked).2 := by
  rcases table.claim_cases req peer asked with ⟨_, equal⟩ | ⟨_, equal⟩
  · rw [equal]
    exact (shrinks_setEntry_get table req).mono fun _ _ => False.elim
  rw [equal]
  constructor
  · intro other holder held
    rw [get_withOwned, get_setEntry] at held
    split at held
    next same => exact .inr ⟨same.symm, (beq_iff_eq.mp held).symm⟩
    · exact .inl held
  · intro other holder held
    rw [get_withOwned, get_setEntry] at held
    split at held
    next same =>
      subst same
      exact .inl held
    · exact .inl held
  · intro marked other named
    rw [get_withOwned, get_setEntry] at named
    rw [withOwned_owned, contains_insert]
    split at named
    next same =>
      subst same
      simp [covered]
    · rw [marked other named]
      rfl
  · exact wordCount_insert ..

/-- A claim that is taken back leaves nothing behind. -/
theorem shrinks_claim_release (table : BlockTable) (req : Nat) (peer : PeerKey)
    (asked : Instant) (won : (table.claim req peer asked).1 = true) :
    Shrinks table ((table.claim req peer asked).2.release req peer) := by
  rcases table.claim_cases req peer asked with ⟨_, equal⟩ | ⟨_, equal⟩
  · rw [equal] at won
    cases won
  rw [equal]
  have claimed : ((table.setEntry req ((table.get req).setOwner peer asked)).withOwned
      (table.owned.insert req)).get req = (table.get req).setOwner peer asked := by
    rw [get_withOwned, get_setEntry, if_pos rfl]
  have mine : ((table.get req).setOwner peer asked).ownedBy peer = true := by simp [ownedBy, setOwner]
  apply shrinks_of_below
  · intro other
    rw [get_release, claimed]
    split
    next both =>
      rw [both.1]
      exact ⟨Or.inl rfl, Or.inr rfl⟩
    next apart =>
      have different : req ≠ other := fun same => apart ⟨same, mine⟩
      rw [get_withOwned, get_setEntry, if_neg different]
      exact .refl _
  · intro other named held
    rw [get_release, claimed] at named
    split at named
    · cases named
    rename_i apart
    have different : req ≠ other := fun same => apart ⟨same, mine⟩
    rw [owned_release, claimed, if_pos mine]
    simp [contains_remove, contains_insert, held, different]
  · rw [owned_release, claimed, if_pos mine, wordCount_remove]
    exact wordCount_insert ..

theorem shrinks_claimSecond_refused (lost : (table.claimSecond req peer).1 = false) :
    Shrinks table (table.claimSecond req peer).2 := by
  rcases table.claimSecond_cases req peer with ⟨_, equal⟩ | ⟨_, equal⟩
  · rw [equal]
    exact shrinks_setEntry_get table req
  · rw [equal] at lost
    cases lost

theorem within_claimSecond (table : BlockTable) (req : Nat) (peer : PeerKey) :
    Within (Gains req peer) table (table.claimSecond req peer).2 := by
  rcases table.claimSecond_cases req peer with ⟨_, equal⟩ | ⟨_, equal⟩
  · rw [equal]
    exact (shrinks_setEntry_get table req).mono fun _ _ => False.elim
  rw [equal]
  constructor
  · intro other holder held
    rw [get_setEntry] at held
    split at held
    next same =>
      subst same
      exact .inl held
    · exact .inl held
  · intro other holder held
    rw [get_setEntry] at held
    split at held
    next same => exact .inr ⟨same.symm, (Option.some.inj held).symm⟩
    · exact .inl held
  · intro marked other named
    rw [get_setEntry] at named
    apply marked other
    split at named
    next same =>
      subst same
      exact named
    · exact named
  · rfl

theorem shrinks_claimSecond_clearSecond (table : BlockTable) (req : Nat) (peer : PeerKey)
    (won : (table.claimSecond req peer).1 = true) :
    Shrinks table ((table.claimSecond req peer).2.clearSecond req) := by
  rcases table.claimSecond_cases req peer with ⟨_, equal⟩ | ⟨_, equal⟩
  · rw [equal] at won
    cases won
  rw [equal]
  apply shrinks_of_below
  · intro other
    rw [get_clearSecond, get_setEntry, get_setEntry, if_pos rfl]
    split
    next same =>
      rw [same]
      exact ⟨Or.inr rfl, Or.inl rfl⟩
    · exact .refl _
  · intro other _ held
    rw [owned_clearSecond]
    exact held
  · rw [owned_clearSecond]
    rfl

end BlockTable
end TorrentPlayer.Core
