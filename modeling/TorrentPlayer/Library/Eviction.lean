import Mathlib.Data.List.Find
import Mathlib.Data.List.Nodup

namespace TorrentPlayer.Library

open List Option

/-!
# Making room

A store drops its victims one after the other until it has room.  It picks them
from a list, but only a victim that is really there frees anything.  A victim
that is not there stays the next one, and the loop does not end.
-/

universe u v

/-- A store that drops victims: which ones come next, what each of them is, and
how much room there is.  The room may be negative. -/
structure Evictor (State : Type u) (Entry : Type v) where
  victims : State -> List Nat
  entry : State -> Nat -> Option Entry
  bytes : Entry -> Nat
  spare : State -> Int
  drop : State -> Nat -> State

variable {victim : Nat} {rest : List Nat}

namespace Evictor

variable {State : Type u} {Entry : Type v}

/-- The loop, for some rounds.  Answers whether there is room at last. -/
def evict (store : Evictor State Entry) : Nat -> State -> Option (Bool × State)
  | 0, _ => none
  | rounds + 1, state =>
    if 0 <= store.spare state then some (true, state)
    else
      match store.victims state with
      | [] => some (false, state)
      | victim :: _ => store.evict rounds (store.drop state victim)

/-- What the victims at the front free, up to the first that is not there. -/
def freed (bytes : Entry -> Nat) (entry : Nat -> Option Entry) : List Nat -> Nat
  | [] => 0
  | victim :: rest =>
    match entry victim with
    | none => 0
    | some found => bytes found + freed bytes entry rest

structure Lawful (store : Evictor State Entry) (valid : State -> Prop) : Prop where
  keeps : ∀ {state : State} (victim : Nat), valid state -> valid (store.drop state victim)
  nodup : ∀ {state : State}, valid state -> (store.victims state).Nodup
  entry_drop : ∀ (state : State) (victim other : Nat), store.entry (store.drop state victim) other =
      if victim = other then none else store.entry state other
  next : ∀ {state : State} {victim : Nat} {rest : List Nat} {entry : Entry}, valid state ->
    store.victims state = victim :: rest -> store.entry state victim = some entry ->
    store.victims (store.drop state victim) = rest /\
      store.spare (store.drop state victim) = store.spare state + store.bytes entry
  stays : ∀ {state : State} {victim : Nat} {rest : List Nat}, valid state ->
    store.victims state = victim :: rest -> store.entry state victim = none ->
    (store.victims (store.drop state victim)).head? = some victim /\
      store.spare (store.drop state victim) = store.spare state

/-- Every victim is there, or those before the first that is not free enough. -/
def CanFinish (store : Evictor State Entry) (state : State) : Prop :=
  (∀ victim ∈ store.victims state, (store.entry state victim).isSome = true) ∨
    0 <= store.spare state + freed store.bytes (store.entry state) (store.victims state)

theorem freed_congr {bytes : Entry -> Nat} {entry other : Nat -> Option Entry}
    {victims : List Nat} (same : ∀ victim ∈ victims, entry victim = other victim) :
    freed bytes entry victims = freed bytes other victims := by
  induction victims with
  | nil => rfl
  | cons victim rest ih =>
    rw [freed, freed, same victim mem_cons_self,
      ih (fun later within => same later (mem_cons_of_mem _ within))]

section
variable {store : Evictor State Entry} {valid : State -> Prop}

section
variable (lawful : store.Lawful valid)
include lawful

variable {state : State}

section
variable (good : valid state)
include good

theorem Lawful.entry_of_later (order : store.victims state = victim :: rest) {later : Nat}
    (within : later ∈ rest) : store.entry (store.drop state victim) later = store.entry state later := by
  have once := lawful.nodup good
  rw [order, nodup_cons] at once
  refine (lawful.entry_drop state victim later).trans (if_neg ?_)
  intro same
  rw [same] at once
  exact once.1 within

theorem Lawful.canFinish_drop {entry : Entry} (order : store.victims state = victim :: rest)
    (there : store.entry state victim = some entry) :
    store.CanFinish (store.drop state victim) <-> store.CanFinish state := by
  rcases lawful.next good order there with ⟨victims, spare⟩
  have entries : ∀ later ∈ rest, store.entry (store.drop state victim) later = store.entry state later :=
    fun _ within => lawful.entry_of_later good order within
  have same : freed store.bytes (store.entry (store.drop state victim)) rest =
      freed store.bytes (store.entry state) rest := freed_congr entries
  rw [CanFinish, CanFinish, victims, order, freed, there]
  dsimp only
  constructor
  · intro can
    rcases can with all | enough
    · refine .inl ?_
      intro other within
      rcases mem_cons.mp within with equal | later
      · rw [equal, there]
        rfl
      · rw [<- entries other later]
        exact all other later
    · exact .inr (by omega)
  · intro can
    rcases can with all | enough
    · refine .inl ?_
      intro other later
      rw [entries other later]
      exact all other (mem_cons_of_mem _ later)
    · exact .inr (by omega)

theorem Lawful.evict_eq_none_of_absent (first : (store.victims state).head? = some victim)
    (absent : store.entry state victim = none) (full : ¬ 0 <= store.spare state) (rounds : Nat) :
    store.evict rounds state = none := by
  induction rounds generalizing state with
  | zero => rfl
  | succ rounds ih =>
    rcases head?_eq_some_iff.mp first with ⟨rest, order⟩
    rcases lawful.stays good order absent with ⟨again, spare⟩
    rw [evict, if_neg full, order]
    refine ih (lawful.keeps victim good) again ?_ (by rw [spare]; exact full)
    rw [lawful.entry_drop, if_pos rfl]

theorem Lawful.evict_eq_none
    (cannot : ¬ store.CanFinish state) (rounds : Nat) : store.evict rounds state = none := by
  induction rounds generalizing state with
  | zero => rfl
  | succ rounds ih =>
    have full : ¬ 0 <= store.spare state := by
      intro room
      exact cannot (Or.inr (by omega))
    cases order : store.victims state with
    | nil =>
      refine absurd (Or.inl ?_) cannot
      intro victim within
      rw [order] at within
      cases within
    | cons victim =>
      cases there : store.entry state victim with
      | none =>
        refine lawful.evict_eq_none_of_absent good ?_ there full _
        rw [order]
        rfl
      | some =>
        rw [evict, if_neg full, order]
        refine ih (lawful.keeps victim good) ?_
        rw [lawful.canFinish_drop good order there]
        exact cannot

theorem Lawful.evict_isSome (can : store.CanFinish state) :
    (store.evict ((store.victims state).length + 1) state).isSome = true := by
  generalize size : (store.victims state).length = count
  induction count generalizing state with
  | zero =>
    rw [evict, length_eq_zero_iff.mp size]
    split <;> rfl
  | succ count ih =>
    rw [evict]
    split
    · rfl
    cases order : store.victims state with
    | nil =>
      rw [order] at size
      cases size
    | cons victim =>
      cases there : store.entry state victim with
      | none =>
        rw [CanFinish, order, freed, there] at can
        rcases can with all | enough
        · have held := all victim mem_cons_self
          rw [there] at held
          cases held
        · dsimp only at enough
          omega
      | some =>
        refine ih (lawful.keeps victim good) ((lawful.canFinish_drop good order there).mpr can) ?_
        rw [(lawful.next good order there).1]
        rw [order, length_cons] at size
        omega

theorem Lawful.evict_ends_iff : (Exists fun rounds : Nat => (store.evict rounds state).isSome = true) <->
    store.CanFinish state := by
  constructor
  · rintro ⟨rounds, ends⟩
    refine Classical.not_not.mp fun cannot => ?_
    rw [lawful.evict_eq_none good cannot] at ends
    cases ends
  · intro can
    exact ⟨_, lawful.evict_isSome good can⟩

end

/-- How the loop ends.  Only victims are gone, and what the loop answers is
whether there is room. -/
theorem Lawful.of_evict {rounds : Nat} {state after : State}
    {room : Bool} (good : valid state) (ends : store.evict rounds state = some (room, after)) :
    valid after /\ (room = true -> 0 <= store.spare after) /\
    ∀ piece, store.entry after piece = store.entry state piece \/ piece ∈ store.victims state := by
  induction rounds generalizing state with
  | zero => cases ends
  | succ rounds ih =>
    rw [evict] at ends
    split at ends
    next enough =>
      cases ends
      exact ⟨good, fun _ => enough, fun _ => Or.inl rfl⟩
    next full =>
      split at ends
      · cases ends
        exact ⟨good, nofun, fun _ => Or.inl rfl⟩
      rename_i victim rest order
      rcases ih (lawful.keeps victim good) ends with ⟨still, enough, others⟩
      refine ⟨still, enough, ?_⟩
      intro piece
      by_cases here : victim = piece
      · refine .inr ?_
        rw [order, here]
        exact mem_cons_self
      cases there : store.entry state victim with
      | none =>
        have again := (lawful.stays good order there).1
        rw [lawful.evict_eq_none_of_absent (lawful.keeps victim good) again
          (by rw [lawful.entry_drop, if_pos rfl])
          (by rw [(lawful.stays good order there).2]; exact full)] at ends
        cases ends
      | some =>
        rcases others piece with same | later
        · rw [lawful.entry_drop, if_neg here] at same
          exact .inl same
        · rw [(lawful.next good order there).1] at later
          rw [order]
          exact .inr (mem_cons_of_mem _ later)

end

/-- Something that is no victim may go first and make room. -/
theorem canFinish_of_dropped {state base : State} {index own : Nat} {used more limit : Int}
    (order : store.victims state = store.victims base) (outside : index ∉ store.victims base)
    (dropped : ∀ piece, store.entry state piece = if index = piece then none else store.entry base piece)
    (spare : store.spare state = limit - (used + more) + own) :
    store.CanFinish state <-> (∀ victim ∈ store.victims base, (store.entry base victim).isSome = true) \/
    used + more <= limit + own + freed store.bytes (store.entry base) (store.victims base) := by
  have entries : ∀ victim ∈ store.victims base, store.entry state victim = store.entry base victim := by
    intro victim within
    refine (dropped victim).trans (if_neg ?_)
    rintro rfl
    exact outside within
  have same : freed store.bytes (store.entry state) (store.victims base) =
      freed store.bytes (store.entry base) (store.victims base) := freed_congr entries
  rw [CanFinish, order, spare, same]
  refine or_congr ?_ (by omega)
  constructor
  · intro all victim within
    rw [<- entries victim within]
    exact all victim within
  · intro all victim within
    rw [entries victim within]
    exact all victim within

/-- An allocation: the old entry of a number goes, then the loop runs, and where it
found room a new entry is made.  It ends and drops only what may go just where
the loop can finish and the old entry may go. -/
theorem Lawful.allocation_iff (lawful : store.Lawful valid) {base start : State} {index : Nat}
    {new : Entry} (mayGo : Nat -> Prop) (final : Bool × State -> State) (good : valid start)
    (dropped : ∀ piece, store.entry start piece =
      if index = piece then none else store.entry base piece)
    (outside : index ∉ store.victims start)
    (victims : ∀ victim ∈ store.victims start, mayGo victim)
    (made : ∀ room mid piece, store.entry (final (room, mid)) piece =
      if room = true /\ index = piece then some new else store.entry mid piece)
    (other : store.entry base index ≠ some new) :
    (Exists fun rounds : Nat => Exists fun result : Bool × State =>
      store.evict rounds start = some result /\ ∀ piece found, store.entry base piece = some found ->
          store.entry (final result) piece ≠ some found -> mayGo piece) <->
    ((store.entry base index).isSome = true -> mayGo index) /\ store.CanFinish start := by
  constructor
  · rintro ⟨rounds, ⟨room, mid⟩, ends, lost⟩
    refine ⟨?_, (lawful.evict_ends_iff good).mp ⟨rounds, by rw [ends]; rfl⟩⟩
    intro present
    rcases isSome_iff_exists.mp present with ⟨found, there⟩
    have gone : store.entry mid index = none := by
      rcases (lawful.of_evict good ends).2.2 index with same | within
      · rw [same, dropped, if_pos rfl]
      · exact absurd within outside
    refine lost index found there fun still => ?_
    rw [made, gone] at still
    split at still
    · exact other (there.trans still.symm)
    · cases still
  · rintro ⟨own, can⟩
    rcases (lawful.evict_ends_iff good).mpr can with ⟨rounds, ending⟩
    rcases isSome_iff_exists.mp ending with ⟨⟨room, mid⟩, ends⟩
    refine ⟨rounds, (room, mid), ends, ?_⟩
    intro piece found there gone
    by_cases here : index = piece
    · rw [<- here] at there ⊢
      exact own (by rw [there]; rfl)
    · rcases (lawful.of_evict good ends).2.2 piece with same | within
      · rw [made, if_neg (fun both => here both.2), same, dropped, if_neg here] at gone
        exact absurd there gone
      · exact victims piece within

end
end Evictor

/-! ## Victims in two passes

A first pass over the order of use takes only some of the victims, a second one
takes the others.
-/

section
variable {order : List Nat} {first second : Nat -> Bool}

def inPasses (order : List Nat) (first second : Nat -> Bool) : List Nat :=
  order.filter first ++ order.filter (fun victim => second victim && !first victim)

theorem mem_inPasses (less : ∀ victim, first victim = true -> second victim = true)
    (within : victim ∈ inPasses order first second) : second victim = true := by
  rw [inPasses, mem_append, mem_filter, mem_filter] at within
  rcases within with ⟨_, early⟩ | ⟨_, late⟩
  · exact less victim early
  rw [Bool.and_eq_true] at late
  exact late.1

/-- The two searches for the next victim. -/
theorem head?_inPasses (order : List Nat) (first second : Nat -> Bool) :
    (inPasses order first second).head? = (order.find? first).or (order.find? second) := by
  rw [inPasses, head?_append, head?_filter, head?_filter]
  cases early : order.find? first with
  | some => rfl
  | none =>
    refine find?_congr ?_
    intro victim there
    have late := find?_eq_none.mp early victim there
    rw [Bool.not_eq_true] at late
    rw [late, Bool.not_false, Bool.and_true]

theorem inPasses_congr {earlier later : Nat -> Bool} (agree : ∀ victim ∈ order,
      earlier victim = first victim /\ later victim = second victim) :
    inPasses order earlier later = inPasses order first second := by
  rw [inPasses]
  refine congrArg₂ _ (filter_congr (fun victim there => (agree victim there).1))
    (filter_congr (fun victim there => ?_))
  rw [(agree victim there).1, (agree victim there).2]

section
variable (nodup : order.Nodup)
include nodup

theorem nodup_inPasses : (inPasses order first second).Nodup := by
  refine List.Nodup.append (nodup.filter _) (nodup.filter _) ?_
  intro victim early late
  have yes := (mem_filter.mp early).2
  have no := (mem_filter.mp late).2
  rw [yes, Bool.not_true, Bool.and_false] at no
  cases no

theorem inPasses_erase (victim : Nat) : inPasses (order.erase victim) first second =
    (inPasses order first second).filter (fun other => other != victim) := by
  rw [nodup.erase_eq_filter, inPasses, inPasses, filter_append, filter_comm first,
    filter_comm (fun other => second other && !first other)]

theorem inPasses_erase_of_notMem (absent : victim ∉ inPasses order first second) :
    inPasses (order.erase victim) first second = inPasses order first second := by
  rw [inPasses_erase nodup]
  refine filter_eq_self.mpr ?_
  intro other there
  refine bne_iff_ne.mpr fun same => ?_
  rw [same] at there
  exact absent there

theorem inPasses_erase_of_cons (passes : inPasses order first second = victim :: rest) :
    inPasses (order.erase victim) first second = rest := by
  have once : (inPasses order first second).Nodup := nodup_inPasses nodup
  rw [passes, nodup_cons] at once
  rw [inPasses_erase nodup, passes, filter_cons, bne_self_eq_false]
  refine filter_eq_self.mpr ?_
  intro other there
  refine bne_iff_ne.mpr fun same => ?_
  rw [same] at there
  exact once.1 there

end

/-- The next victim stays the next one if it does not leave the order and nothing
changes for the others. -/
theorem head?_inPasses_of_agree {earlier later : Nat -> Bool}
    (passes : inPasses order first second = victim :: rest) (agree : ∀ other, victim ≠ other ->
      earlier other = first other /\ later other = second other)
    (kept : first victim = true -> earlier victim = true) (still : later victim = true) :
    (inPasses order earlier later).head? = some victim := by
  have next : (order.find? first).or (order.find? second) = some victim := by
    rw [<- head?_inPasses, passes]
    rfl
  rw [head?_inPasses]
  cases early : order.find? first with
  | some =>
    rw [early, some_or] at next
    rw [next] at early
    have same : order.find? earlier = order.find? first := by
      refine find?_congr fun other _ => ?_
      by_cases here : victim = other
      · rw [<- here, kept (find?_some early), find?_some early]
      · exact (agree other here).1
    rw [same, early, some_or]
  | none =>
    rw [early, none_or] at next
    have same : order.find? later = order.find? second := by
      refine find?_congr fun other _ => ?_
      by_cases here : victim = other
      · rw [<- here, still, find?_some next]
      · exact (agree other here).2
    cases now : order.find? earlier with
    | none => rw [same, next, none_or]
    | some found =>
      by_cases here : victim = found
      · rw [here, some_or]
      have yes := find?_some now
      rw [(agree found here).1] at yes
      exact absurd yes (find?_eq_none.mp early found (mem_of_find?_eq_some now))

end
end TorrentPlayer.Library
