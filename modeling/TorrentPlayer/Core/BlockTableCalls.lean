import TorrentPlayer.Core.BlockTable
import TorrentPlayer.Library.Machine

namespace TorrentPlayer.Core

open Library BlockTable Hold ChunkBits Option List

/-!
# Concurrent calls on the block table

Peers work on the table at the same time.  A section under a shard lock is one
step, and so is a bit operation made outside a lock.  Two calls therefore take
more than one step: `clear` removes the entry first and the owned bit later,
and `forgetPeer` visits one shard after the other.  The calls that are between
two steps are part of the state.

The bit and the entry of a block agree at rest, provided that no block is
claimed while a `clear` of the same block is between its halves.  A claim that
lands there loses its bit and keeps its entry.
-/

/-- The table and the calls that have begun and not returned: the blocks of
`clear` calls whose bit is still to be removed, and the peers of `forgetPeer`
calls with the shard each visits next. -/
structure Calls where
  table : BlockTable
  clearing : List Nat := []
  forgetting : List (PeerKey × Fin shardCount) := []

/-- One atomic section of a call.  A claim carries the answer it returns. -/
inductive Call where
  | claim (req : Nat) (peer : PeerKey) (asked : Instant) (won : Bool)
  | release (req : Nat) (peer : PeerKey)
  | clearOwner (req : Nat)
  | claimSecond (req : Nat) (peer : PeerKey) (won : Bool)
  | releaseSecond (req : Nat) (peer : PeerKey)
  | clearSecond (req : Nat)
  | clearEntry (req : Nat)
  | clearBit (req : Nat)
  | forgetPeer (peer : PeerKey)
  | forgetShard (peer : PeerKey) (index : Fin shardCount)

namespace Calls

/-- A `forgetPeer` call moves on to the next shard, or returns after the last. -/
def nextShard (forgetting : List (PeerKey × Fin shardCount)) (peer : PeerKey)
    (index : Fin shardCount) : List (PeerKey × Fin shardCount) :=
  if more : index.val + 1 < shardCount then
    (peer, ⟨index.val + 1, more⟩) :: forgetting.erase (peer, index)
  else forgetting.erase (peer, index)

def step (state : Calls) : Call -> Option Calls
  | .claim req peer asked won =>
    if (state.table.claim req peer asked).1 = won then
      some { state with table := (state.table.claim req peer asked).2 }
    else none
  | .release req peer => some { state with table := state.table.release req peer }
  | .clearOwner req => some { state with table := state.table.clearOwner req }
  | .claimSecond req peer won =>
    if (state.table.claimSecond req peer).1 = won then
      some { state with table := (state.table.claimSecond req peer).2 }
    else none
  | .releaseSecond req peer => some { state with table := state.table.releaseSecond req peer }
  | .clearSecond req => some { state with table := state.table.clearSecond req }
  | .clearEntry req =>
    some { state with table := state.table.clearEntry req, clearing := req :: state.clearing }
  | .clearBit req =>
    if req ∈ state.clearing then
      some { state with
        table := state.table.clearBit req
        clearing := state.clearing.erase req }
    else none
  | .forgetPeer peer =>
    some { state with forgetting := (peer, ⟨0, by decide⟩) :: state.forgetting }
  | .forgetShard peer index =>
    if (peer, index) ∈ state.forgetting then
      some { state with
        table := state.table.forgetShard index peer
        forgetting := nextShard state.forgetting peer index }
    else none

/-- Runs over a table that was sized for `blocks` blocks. -/
def machine (blocks : Nat) : Machine Calls Call where
  init := fun state => state = { table := new.init blocks }
  step := step

def Quiet (state : Calls) : Prop :=
  state.clearing = [] /\ state.forgetting = []

instance (state : Calls) : Decidable state.Quiet :=
  inferInstanceAs (Decidable (_ /\ _))

def trackClaim (req : Nat) (peer : PeerKey) (isOpen : Bool) : Call -> Bool
  | .claim block caller _ won => isOpen || (won && block == req && caller == peer)
  | .release block caller => isOpen && !(block == req && caller == peer)
  | .clearOwner block | .clearEntry block => isOpen && block != req
  | .forgetShard gone index => isOpen && !(index == shardOf req && gone == peer)
  | _ => isOpen

/-- The peer's last successful claim of the block was not released or cleared. -/
def claimOpen (calls : List Call) (req : Nat) (peer : PeerKey) : Bool :=
  calls.foldl (trackClaim req peer) false

def trackSecond (req : Nat) (peer : PeerKey) (isOpen : Bool) : Call -> Bool
  | .claimSecond block caller won => isOpen || (won && block == req && caller == peer)
  | .releaseSecond block caller => isOpen && !(block == req && caller == peer)
  | .clearSecond block | .clearEntry block => isOpen && block != req
  | .forgetShard gone index => isOpen && !(index == shardOf req && gone == peer)
  | _ => isOpen

def secondOpen (calls : List Call) (req : Nat) (peer : PeerKey) : Bool :=
  calls.foldl (trackSecond req peer) false

variable (calls : List Call) (call : Call) (req : Nat) (peer : PeerKey)

theorem claimOpen_append :
    claimOpen (calls ++ [call]) req peer = trackClaim req peer (claimOpen calls req peer) call := by
  rw [claimOpen, foldl_append]
  rfl

theorem secondOpen_append : secondOpen (calls ++ [call]) req peer =
    trackSecond req peer (secondOpen calls req peer) call := by
  rw [secondOpen, foldl_append]
  rfl

/-! ## What a step keeps -/

variable {state after : Calls} {call : Call} {calls : List Call}

theorem covers_step (taken : state.step call = some after) (req : Nat) :
    after.table.owned.covers req = state.table.owned.covers req := by
  cases call <;> simp only [step, Option.some.injEq, ite_none_right_eq_some] at taken
  case claim | claimSecond | forgetShard => obtain ⟨_, rfl⟩ := taken; simp
  case release | clearOwner | releaseSecond | clearSecond => subst taken; simp
  case clearEntry => subst taken; simp [clearEntry]
  case clearBit => obtain ⟨_, rfl⟩ := taken; simp [clearBit]
  case forgetPeer => subst taken; rfl

theorem tidy_step (taken : state.step call = some after) (tidy : state.table.Tidy) : after.table.Tidy := by
  cases call <;> simp only [step, Option.some.injEq, ite_none_right_eq_some] at taken
  case claim => obtain ⟨_, rfl⟩ := taken; exact tidy_claim tidy _ _ _
  case release => subst taken; exact tidy_release tidy _ _
  case clearOwner => subst taken; exact tidy_clearOwner tidy _
  case claimSecond => obtain ⟨_, rfl⟩ := taken; exact tidy_claimSecond tidy _ _
  case releaseSecond => subst taken; exact tidy_releaseSecond tidy _ _
  case clearSecond => subst taken; exact tidy_clearSecond tidy _
  case clearEntry => subst taken; exact tidy_removeEntry tidy _
  case clearBit => obtain ⟨_, rfl⟩ := taken; exact tidy
  case forgetPeer => subst taken; exact tidy
  case forgetShard => obtain ⟨_, rfl⟩ := taken; exact tidy_forgetShard tidy _ _

def holdAfter (req : Nat) (hold : Hold) : Call -> Hold
  | .claim block peer asked won =>
    if block = req /\ won = true then hold.setOwner peer asked else hold
  | .release block peer =>
    if block = req /\ hold.ownedBy peer = true then hold.dropOwner else hold
  | .clearOwner block => if block = req then hold.dropOwner else hold
  | .claimSecond block peer won => if block = req /\ won = true then hold.setSecond peer else hold
  | .releaseSecond block peer =>
    if block = req /\ hold.second = some peer then hold.dropSecond else hold
  | .clearSecond block => if block = req then hold.dropSecond else hold
  | .clearEntry block => if block = req then {} else hold
  | .forgetShard peer index => if shardOf req = index then hold.forget peer else hold
  | .clearBit _ | .forgetPeer _ => hold

section
variable (taken : state.step call = some after)
include taken

theorem get_step (req : Nat) : after.table.get req = holdAfter req (state.table.get req) call := by
  cases call <;> simp only [step, Option.some.injEq, ite_none_right_eq_some] at taken
  case claim block caller asked won =>
    obtain ⟨rfl, rfl⟩ := taken
    rcases state.table.claim_cases block caller asked with ⟨_, equal⟩ | ⟨_, equal⟩
    · simp [holdAfter, equal, setEntry_get_get]
    simp only [holdAfter, equal, get_withOwned, get_setEntry, and_true]
    by_cases same : block = req <;> simp [same]
  case release block caller =>
    subst taken
    by_cases same : block = req <;> simp [holdAfter, get_release, same]
  case clearOwner block =>
    subst taken
    by_cases same : block = req <;> simp [holdAfter, get_clearOwner, same]
  case claimSecond block caller won =>
    obtain ⟨rfl, rfl⟩ := taken
    rcases state.table.claimSecond_cases block caller with ⟨_, equal⟩ | ⟨_, equal⟩
    · simp [holdAfter, equal, setEntry_get_get]
    simp only [holdAfter, equal, get_setEntry, and_true]
    by_cases same : block = req <;> simp [same]
  case releaseSecond block caller =>
    subst taken
    by_cases same : block = req <;> simp [holdAfter, get_releaseSecond, same]
  case clearSecond block =>
    subst taken
    by_cases same : block = req <;> simp [holdAfter, get_clearSecond, same]
  case clearEntry block =>
    subst taken
    exact get_removeEntry _ _ _
  case clearBit =>
    obtain ⟨_, rfl⟩ := taken
    rfl
  case forgetPeer =>
    subst taken
    rfl
  case forgetShard gone index =>
    obtain ⟨_, rfl⟩ := taken
    exact get_forgetShard _ _ _ _

/-- A peer that owns a block after a step owned it before, or has just claimed
it; in both cases its claim is open. -/
theorem claimOpen_step (opened : ∀ req peer, (state.table.get req).ownedBy peer = true ->
      claimOpen calls req peer = true) (req : Nat) (peer : PeerKey)
    (owns : (after.table.get req).ownedBy peer = true) :
    claimOpen (calls ++ [call]) req peer = true := by
  rw [claimOpen_append]
  rw [get_step taken] at owns
  cases call <;> simp only [holdAfter] at owns
  case claim block caller asked won =>
    split at owns
    next mine =>
      have same : caller = peer := by simpa [setOwner, ownedBy] using owns
      simp [trackClaim, mine, same]
    · simp [trackClaim, opened req peer owns]
  case release block caller =>
    split at owns
    · simp [dropOwner, ownedBy] at owns
    rename_i kept
    have other : block = req -> caller ≠ peer := by
      rintro same rfl
      exact kept ⟨same, owns⟩
    simpa [trackClaim, opened req peer owns] using not_or_of_imp other
  case clearOwner block =>
    split at owns
    · simp [dropOwner, ownedBy] at owns
    next other => simp [trackClaim, opened req peer owns, other]
  case claimSecond | releaseSecond | clearSecond =>
    refine opened req peer ?_
    split at owns <;> exact owns
  case clearEntry block =>
    split at owns
    · simp [ownedBy] at owns
    next other => simp [trackClaim, opened req peer owns, other]
  case clearBit | forgetPeer => exact opened req peer owns
  case forgetShard gone index =>
    split at owns
    next shard =>
      have stayed : gone ≠ peer := by
        rintro rfl
        rw [ownedBy_forget] at owns
        cases owns
      simp [trackClaim, opened req peer (ownedBy_of_forget owns), stayed]
    next shard => simp [trackClaim, opened req peer owns, Ne.symm shard]

theorem secondOpen_step (opened : ∀ req peer, (state.table.get req).second = some peer ->
      secondOpen calls req peer = true) (req : Nat) (peer : PeerKey)
    (copies : (after.table.get req).second = some peer) :
    secondOpen (calls ++ [call]) req peer = true := by
  rw [secondOpen_append]
  rw [get_step taken] at copies
  cases call <;> simp only [holdAfter] at copies
  case claim | release | clearOwner =>
    refine opened req peer ?_
    split at copies <;> exact copies
  case claimSecond block caller won =>
    split at copies
    next mine =>
      have same : caller = peer := by simpa [setSecond] using copies
      simp [trackSecond, mine, same]
    · simp [trackSecond, opened req peer copies]
  case releaseSecond block caller =>
    split at copies
    · cases copies
    rename_i kept
    have other : block = req -> caller ≠ peer := by
      rintro same rfl
      exact kept ⟨same, copies⟩
    simpa [trackSecond, opened req peer copies] using not_or_of_imp other
  case clearSecond block | clearEntry block =>
    split at copies
    · cases copies
    next other => simp [trackSecond, opened req peer copies, other]
  case clearBit | forgetPeer => exact opened req peer copies
  case forgetShard gone index =>
    split at copies
    next shard =>
      obtain ⟨before, stayed⟩ := second_of_forget copies
      simp [trackSecond, opened req peer before, stayed]
    next shard => simp [trackSecond, opened req peer copies, Ne.symm shard]

end

/-! ## The bit and the entry of a block -/

/-- A claim does not land between the two halves of a `clear` of its block. -/
def ClaimsOutsideClear (state : Calls) : Call -> Prop
  | .claim req _ _ _ => req ∉ state.clearing
  | _ => True

instance (state : Calls) : ∀ call, Decidable (state.ClaimsOutsideClear call)
  | .claim req _ _ _ => inferInstanceAs (Decidable (req ∉ state.clearing))
  | .release .. | .clearOwner .. | .claimSecond .. | .releaseSecond .. | .clearSecond ..
  | .clearEntry .. | .clearBit .. | .forgetPeer .. | .forgetShard .. => isTrue trivial

/-- The bit of a block says whether the block has an owner.  While a `clear`
of the block is between its halves the bit may still be set, but there is no
owner. -/
def Agrees (state : Calls) (req : Nat) : Prop :=
  if req ∈ state.clearing then (state.table.get req).owner = none
  else state.table.owned.contains req = (state.table.get req).owner.isSome

theorem Agrees.of_unchanged {req : Nat} (agrees : state.Agrees req)
    (clearing : req ∈ after.clearing <-> req ∈ state.clearing)
    (hold : (after.table.get req).owner = (state.table.get req).owner)
    (bit : after.table.owned.contains req = state.table.owned.contains req) : after.Agrees req := by
  rw [Agrees, hold, bit]
  simp only [clearing]
  exact agrees

theorem Agrees.of_released {req : Nat} (hold : (after.table.get req).owner = none)
    (bit : after.table.owned.contains req = false) : after.Agrees req := by
  rw [Agrees, hold, bit]
  split <;> rfl

theorem agrees_step {req : Nat} (taken : state.step call = some after)
    (allowed : state.ClaimsOutsideClear call) (covered : state.table.owned.covers req = true)
    (agrees : state.Agrees req) : after.Agrees req := by
  have hold := get_step taken req
  cases call <;> simp only [holdAfter] at hold <;>
    simp only [step, Option.some.injEq, ite_none_right_eq_some] at taken
  case claim block caller asked won =>
    obtain ⟨rfl, rfl⟩ := taken
    rcases state.table.claim_cases block caller asked with ⟨_, equal⟩ | ⟨_, equal⟩
    · exact agrees.of_unchanged Iff.rfl (by rw [hold, equal]; simp) (by simp [equal])
    by_cases same : block = req
    · subst same
      rw [Agrees, if_neg allowed, hold]
      simp [equal, setOwner, contains_insert, covered]
    · exact agrees.of_unchanged Iff.rfl (by simp [hold, same]) (by simp [equal, contains_insert, same])
  case release block caller =>
    subst taken
    by_cases mine : block = req /\ (state.table.get req).ownedBy caller = true
    · obtain ⟨rfl, owns⟩ := mine
      exact .of_released (by simp [hold, owns, dropOwner]) (by simp [owned_release, contains_remove, owns])
    refine agrees.of_unchanged Iff.rfl (by simp [hold, mine]) ?_
    simp only [owned_release]
    split
    next owns =>
      have other : block ≠ req := fun same => mine ⟨same, same ▸ owns⟩
      simp [contains_remove, other]
    · rfl
  case clearOwner block =>
    subst taken
    by_cases same : block = req
    · subst same
      cases found : state.table.entry block with
      | none =>
        exact agrees.of_unchanged Iff.rfl (by simp [hold, get_eq_of_entry_none found, dropOwner])
          (by simp [owned_clearOwner, found])
      | some held =>
        exact .of_released (by simp [hold, dropOwner]) (by simp [owned_clearOwner, found, contains_remove])
    · refine agrees.of_unchanged Iff.rfl (by simp [hold, same]) ?_
      simp only [owned_clearOwner]
      split
      · simp [contains_remove, same]
      · rfl
  case claimSecond =>
    obtain ⟨_, rfl⟩ := taken
    refine agrees.of_unchanged Iff.rfl ?_ (by simp)
    rw [hold]
    split <;> rfl
  case releaseSecond | clearSecond =>
    subst taken
    refine agrees.of_unchanged Iff.rfl ?_ (by simp)
    rw [hold]
    split <;> rfl
  case clearEntry block =>
    subst taken
    by_cases same : block = req
    · rw [Agrees, if_pos (same ▸ mem_cons_self), hold, if_pos same]
    have different : req ≠ block := fun equal => same equal.symm
    exact agrees.of_unchanged (by simp [different]) (by simp [hold, same]) (by simp [clearEntry])
  case clearBit block =>
    obtain ⟨member, rfl⟩ := taken
    by_cases same : block = req
    · subst same
      rw [Agrees, if_pos member] at agrees
      exact .of_released agrees (by simp [clearBit, contains_remove])
    · exact agrees.of_unchanged (mem_erase_of_ne fun equal => same equal.symm) rfl
        (by simp [clearBit, contains_remove, same])
  case forgetPeer =>
    subst taken
    exact agrees
  case forgetShard gone index =>
    obtain ⟨_, rfl⟩ := taken
    by_cases mine : shardOf req = index /\ (state.table.get req).ownedBy gone = true
    · exact .of_released (by simp [hold, mine, forget]) (by simp [contains_owned_forgetShard, mine])
    refine agrees.of_unchanged Iff.rfl ?_ ?_
    · rw [hold]
      split
      next shard =>
        have kept : ¬ (state.table.get req).ownedBy gone = true := fun owns => mine ⟨shard, owns⟩
        simp [forget, kept]
      · rfl
    · simp only [not_and, Bool.not_eq_true] at mine
      by_cases shard : shardOf req = index <;>
        simp [contains_owned_forgetShard, shard, mine]

/-! ## The table at rest -/

/-- What the table owes its users once no call is in progress: the bit of a
block says whether its entry names an owner, no entry is empty, and a block is
free for every peer when all claims of it were released or cleared. -/
structure Settled (blocks : Nat) (calls : List Call) (state : Calls) : Prop where
  bit : ∀ req < blocks, (state.table.isOwned req = true <->
      Exists fun hold => state.table.entry req = some hold /\ hold.owner.isSome = true)
  named : ∀ req hold, state.table.entry req = some hold ->
    hold.owner.isSome = true ∨ hold.second.isSome = true
  free : ∀ req < blocks, (∀ peer, claimOpen calls req peer = false) ->
    state.table.isOwned req = false /\ ∀ peer asked, (state.table.claim req peer asked).1 = true
  copyFree : ∀ req, (∀ peer, secondOpen calls req peer = false) ->
    ∀ peer, (state.table.claimSecond req peer).1 = true

/-- What holds between the steps as well. -/
structure Sound (blocks : Nat) (calls : List Call) (state : Calls) : Prop where
  covers : ∀ req < blocks, state.table.owned.covers req = true
  tidy : state.table.Tidy
  agrees : ∀ req < blocks, state.Agrees req
  claims : ∀ req peer, (state.table.get req).ownedBy peer = true -> claimOpen calls req peer = true
  seconds : ∀ req peer, (state.table.get req).second = some peer -> secondOpen calls req peer = true

theorem sound_init (blocks : Nat) : Sound blocks [] { table := new.init blocks } where
  covers := fun _ inside => covers_init_new inside
  tidy := nofun
  agrees := fun req _ => .of_released rfl (contains_init_new blocks req)
  claims := nofun
  seconds := nofun

theorem sound_step {blocks : Nat} (sound : Sound blocks calls state)
    (allowed : state.ClaimsOutsideClear call) (taken : state.step call = some after) :
    Sound blocks (calls ++ [call]) after where
  covers := fun req inside => (covers_step taken req).trans (sound.covers req inside)
  tidy := tidy_step taken sound.tidy
  agrees := fun req inside => agrees_step taken allowed (sound.covers req inside) (sound.agrees req inside)
  claims := claimOpen_step taken sound.claims
  seconds := secondOpen_step taken sound.seconds

theorem owner_isSome_iff_entry (table : BlockTable) (req : Nat) : (table.get req).owner.isSome = true <->
    Exists fun hold => table.entry req = some hold /\ hold.owner.isSome = true := by
  rw [BlockTable.get]
  cases table.entry req <;> simp

theorem Sound.settled {blocks : Nat} (sound : Sound blocks calls state) (quiet : state.Quiet) :
    Settled blocks calls state := by
  have bits : ∀ req < blocks, state.table.isOwned req = (state.table.get req).owner.isSome := by
    intro req inside
    have agrees := sound.agrees req inside
    rw [Agrees, quiet.1] at agrees
    exact agrees
  have unowned : ∀ req, (∀ peer, claimOpen calls req peer = false) ->
      (state.table.get req).owner = none := by
    intro req closed
    cases held : (state.table.get req).owner with
    | none => rfl
    | some owner =>
      have opened := sound.claims req owner.1 (by simp [ownedBy, held])
      rw [closed] at opened
      cases opened
  constructor
  case bit =>
    intro req inside
    rw [bits req inside]
    exact owner_isSome_iff_entry state.table req
  case named =>
    intro req hold found
    have kept := sound.tidy req hold found
    rw [Hold.kept] at kept
    split at kept
    next named => exact Bool.or_eq_true_iff.mp named
    · cases kept
  case free =>
    intro req inside closed
    have none_owns := unowned req closed
    refine ⟨by rw [bits req inside, none_owns]; rfl, ?_⟩
    intro peer asked
    rcases state.table.claim_cases req peer asked with ⟨taken, _⟩ | ⟨_, equal⟩
    · rw [none_owns] at taken
      cases taken
    · rw [equal]
  case copyFree =>
    intro req closed peer
    rcases state.table.claimSecond_cases req peer with ⟨taken, _⟩ | ⟨_, equal⟩
    · obtain ⟨other, copies⟩ := isSome_iff_exists.mp taken
      have opened := sound.seconds req other copies
      rw [closed] at opened
      cases opened
    · rw [equal]

/-- In every run in which no block is claimed between the halves of a `clear`
of it, the table is settled whenever no call is in progress. -/
theorem settled_of_claims_outside_clear (blocks : Nat) (calls : List Call) (state : Calls)
    (run : (machine blocks).RunsTo ClaimsOutsideClear calls state) (quiet : state.Quiet) :
    Settled blocks calls state := by
  refine Sound.settled ?_ quiet
  apply run.invariant (motive := Sound blocks)
  · rintro start rfl
    exact sound_init blocks
  · intro calls state call after sound allowed taken
    exact sound_step sound allowed taken

/-- A block that is claimed, cleared and claimed again by another peer. -/
def orderly : List Call :=
  [.claim 5 10 0 true, .clearEntry 5, .clearBit 5, .claim 5 20 1 true]

def orderlyEnd : Calls :=
  { table :=
      (((((BlockTable.new.init 64).claim 5 10 0).2.clearEntry 5).clearBit 5).claim 5 20 1).2 }

theorem settled_after_orderly_clear :
    (machine 64).RunsTo ClaimsOutsideClear orderly orderlyEnd ∧ orderlyEnd.Quiet ∧
      Settled 64 orderly orderlyEnd :=
  have run : (machine 64).RunsTo ClaimsOutsideClear orderly orderlyEnd :=
    .of_exec rfl (by decide) rfl
  ⟨run, by decide, settled_of_claims_outside_clear 64 orderly orderlyEnd run (by decide)⟩

/-- The same calls with the second claim between the halves of the `clear`. -/
def overtaken : List Call :=
  [.claim 5 10 0 true, .clearEntry 5, .claim 5 20 1 true, .clearBit 5]

def overtakenEnd : Calls :=
  { table :=
      (((((BlockTable.new.init 64).claim 5 10 0).2.clearEntry 5).claim 5 20 1).2.clearBit 5) }

/-- Peer 20 owns block 5 after these calls, but the bit of block 5 is clear. -/
theorem unsettled_by_claim_during_clear : ¬ forall (blocks : Nat) (calls : List Call) (state : Calls),
      (machine blocks).RunsTo Machine.always calls state -> state.Quiet ->
      Settled blocks calls state := by
  intro settled
  have run : (machine 64).RunsTo Machine.always overtaken overtakenEnd :=
    .of_exec rfl (Machine.permits_always _ _ _) rfl
  have bit := (settled 64 overtaken overtakenEnd run (by decide)).bit 5 (by decide)
  have owned : overtakenEnd.table.isOwned 5 = true :=
    bit.mpr ⟨{ owner := some (20, 1) }, by decide, by decide⟩
  exact absurd owned (by decide)

end Calls
end TorrentPlayer.Core
