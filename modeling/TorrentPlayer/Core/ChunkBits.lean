import Mathlib.Order.Interval.Finset.Nat
import TorrentPlayer.Library.Bits

namespace TorrentPlayer.Core

open BitVec

/-!
# The lock-free block sets

`ChunkBits` keeps one bit for every block of the torrent in an array of 64-bit
words.  The array is sized once, when the torrent's info arrives.  Before that,
and for a block past its end, a lookup answers no and an update is dropped.

Each operation is first written on the words, as the code does it with one
atomic operation per word.  The lemmas of the second half describe it as an
operation on a set of block numbers, and later modules use only those.
-/

/-- One bit per block, by its torrent-wide request index; no words before the
torrent's size is known. -/
structure ChunkBits where
  words : Option (List (BitVec 64))

namespace ChunkBits

/-- The set before `init`. -/
def new : ChunkBits :=
  { words := none }

variable (set : ChunkBits) (start finish req : Nat)

/-- Size the set for `bits` blocks.  Only the first call has an effect. -/
def init (bits : Nat) : ChunkBits :=
  match set.words with
  | some _ => set
  | none => { words := some (List.replicate ((bits + 63) / 64) 0#64) }

def word (index : Nat) : Option (BitVec 64) :=
  set.words.bind (fun words => words[index]?)

/-- The mask of one block inside its word. -/
def bit : BitVec 64 :=
  1#64 <<< (req % 64)

def modifyWord (index : Nat) (change : BitVec 64 -> BitVec 64) : ChunkBits :=
  { words := set.words.map (fun words => words.modify index change) }

def contains : Bool :=
  (set.word (req / 64)).any (fun w => w &&& bit req != 0#64)

def insert : ChunkBits :=
  set.modifyWord (req / 64) (fun w => w ||| bit req)

/-- Set a bit and report whether this call set it.  A block without a word is
reported as new to every caller. -/
def insertNew : Bool × ChunkBits :=
  ((set.word (req / 64)).all (fun w => w &&& bit req == 0#64), set.insert req)

def remove : ChunkBits :=
  set.modifyWord (req / 64) (fun w => w &&& ~~~(bit req))

/-- The bits of word `index` that belong to blocks of `[start, finish)`. -/
def rangeMask (index start finish : Nat) : BitVec 64 :=
  let first := index * 64
  let low := start - first
  let high := min (finish - first) 64
  let upper := if high = 64 then BitVec.allOnes 64 else (1#64 <<< high) - 1#64
  upper &&& ~~~((1#64 <<< low) - 1#64)

/-- The words that hold a block of `[start, finish)`. -/
def wordRange : List Nat :=
  List.range' (start / 64) ((finish + 63) / 64 - start / 64)

/-- Every block of the range is set.  False for an empty range. -/
def allInRange : Bool :=
  start < finish && (wordRange start finish).all (fun index =>
    let mask := rangeMask index start finish
    (set.word index).any (fun w => w &&& mask == mask))

def anyInRange : Bool :=
  start < finish && (wordRange start finish).any (fun index =>
    let mask := rangeMask index start finish
    (set.word index).any (fun w => w &&& mask != 0#64))

def removeRange : ChunkBits :=
  if finish <= start then set
  else (wordRange start finish).foldl
    (fun set index => set.modifyWord index (fun w => w &&& ~~~(rangeMask index start finish)))
    set

/-! ## Words as sets of blocks -/

def covers : Bool :=
  (set.word (req / 64)).isSome

theorem and_bit_ne_zero (w : BitVec 64) (req : Nat) : (w &&& bit req != 0#64) = w.getLsbD (req % 64) :=
  Library.and_oneBit_ne_zero w (Nat.mod_lt _ (by decide))

variable (set : ChunkBits) (start finish req other : Nat)

theorem contains_eq : set.contains req = (set.word (req / 64)).any (fun w => w.getLsbD (req % 64)) := by
  simp only [contains, and_bit_ne_zero]

theorem contains_eq_true_iff {set : ChunkBits} {req : Nat} : set.contains req = true <->
    Exists fun w => set.word (req / 64) = some w /\ w.getLsbD (req % 64) = true := by
  rw [contains_eq]
  cases set.word (req / 64) <;> simp

theorem word_modifyWord (index other : Nat) (change : BitVec 64 -> BitVec 64) :
    (set.modifyWord index change).word other =
    if index = other then (set.word other).map change else set.word other := by
  cases held : set.words with
  | none => simp [modifyWord, word, held]
  | some =>
    by_cases same : index = other
    · simp [modifyWord, word, held, same]
    · simp [modifyWord, word, held, same]

theorem covers_modifyWord (index : Nat) (change : BitVec 64 -> BitVec 64) (req : Nat) :
    (set.modifyWord index change).covers req = set.covers req := by
  simp only [covers, word_modifyWord]
  split <;> simp

theorem getLsbD_bit : (bit req).getLsbD (other % 64) = decide (req % 64 = other % 64) := by
  have small : other % 64 < 64 := Nat.mod_lt _ (by decide)
  rw [bit, Library.getLsbD_oneBit small, decide_eq_decide]
  exact eq_comm

theorem contains_insert : (set.insert req).contains other =
      (set.contains other || (req == other && set.covers other)) := by
  simp only [contains_eq, insert, word_modifyWord, covers]
  by_cases near : req / 64 = other / 64
  · have same : (req == other) = decide (req % 64 = other % 64) := by
      rw [beq_eq_decide, decide_eq_decide]
      omega
    rw [if_pos near, same]
    cases set.word (other / 64) with
    | none => simp
    | some w => simp [getLsbD_bit]
  · have different : (req == other) = false := by
      rw [beq_eq_false_iff_ne]
      omega
    rw [if_neg near, different]
    simp

theorem contains_remove : (set.remove req).contains other = (set.contains other && req != other) := by
  simp only [contains_eq, remove, word_modifyWord]
  by_cases near : req / 64 = other / 64
  · have same : (req != other) = !decide (req % 64 = other % 64) := by
      rw [bne, beq_eq_decide, Bool.not_inj_iff, decide_eq_decide]
      omega
    have small : other % 64 < 64 := Nat.mod_lt _ (by decide)
    rw [if_pos near, same]
    cases set.word (other / 64) with
    | none => rfl
    | some w =>
      simp only [Option.map_some, Option.any_some, getLsbD_and, getLsbD_not,
        getLsbD_bit, small, decide_true, Bool.true_and]
  · have different : (req != other) = true := by
      rw [bne_iff_ne]
      omega
    rw [if_neg near, different]
    simp

@[simp] theorem covers_insert : (set.insert req).covers other = set.covers other :=
  covers_modifyWord ..

@[simp] theorem covers_remove : (set.remove req).covers other = set.covers other :=
  covers_modifyWord ..

/-- The number of words, once the set has its size. -/
def wordCount (set : ChunkBits) : Option Nat :=
  set.words.map List.length

theorem wordCount_modifyWord (index : Nat) (change : BitVec 64 -> BitVec 64) :
    (set.modifyWord index change).wordCount = set.wordCount := by
  rw [wordCount, modifyWord, Option.map_map]
  congr 1
  funext words
  exact List.length_modify ..

@[simp] theorem wordCount_insert : (set.insert req).wordCount = set.wordCount :=
  wordCount_modifyWord ..

@[simp] theorem wordCount_remove : (set.remove req).wordCount = set.wordCount :=
  wordCount_modifyWord ..

theorem covers_of_wordCount {first second : ChunkBits}
    (same : first.wordCount = second.wordCount) (req : Nat) : first.covers req = second.covers req := by
  rcases first with ⟨_ | first⟩ <;> rcases second with ⟨_ | second⟩
  · rfl
  · cases same
  · cases same
  · have lengths : first.length = second.length := Option.some.inj same
    rw [Bool.eq_iff_iff]
    simp [covers, word, lengths]

theorem eq_new_of_wordCount {set : ChunkBits} (unsized : set.wordCount = none) : set = new := by
  rcases set with ⟨_ | words⟩
  · rfl
  · cases unsized

theorem insertNew_eq : set.insertNew req = (!set.contains req, set.insert req) := by
  simp only [insertNew, contains]
  cases set.word (req / 64) <;> simp [bne]

theorem covers_init_new {bits req : Nat} (inside : req < bits) : (new.init bits).covers req = true := by
  have small : req / 64 < (bits + 63) / 64 := by omega
  simp [covers, word, new, init, small]

@[simp] theorem contains_init_new (bits req : Nat) : (new.init bits).contains req = false := by
  simp only [contains_eq, word, new, init, Option.bind_some, List.getElem?_replicate]
  split <;> simp

/-! ## Ranges of blocks -/

theorem mem_wordRange {start finish index : Nat} : index ∈ wordRange start finish <->
    start / 64 <= index /\ index < (finish + 63) / 64 := by
  rw [wordRange, List.mem_range']
  constructor
  · rintro ⟨i, small, rfl⟩
    omega
  · rintro ⟨low, high⟩
    exact ⟨index - start / 64, by omega, by omega⟩

private theorem getLsbD_lowMask {count : Nat} (small : count < 64) (i : Nat) :
    ((1#64 <<< count) - 1#64).getLsbD i = decide (i < count) := by
  have fits : (1 % 2 ^ 64) <<< count % 2 ^ 64 = 2 ^ count := by
    rw [Nat.mod_eq_of_lt (by decide : 1 < 2 ^ 64), Nat.one_shiftLeft]
    exact Nat.mod_eq_of_lt (Nat.pow_lt_pow_right (by decide) small)
  have value : ((1#64 <<< count) - 1#64).toNat = 2 ^ count - 1 := by
    rw [toNat_sub, toNat_shiftLeft, toNat_ofNat]
    have positive : 0 < 2 ^ count := Nat.two_pow_pos count
    omega
  rw [BitVec.getLsbD, value, Nat.testBit_two_pow_sub_one]

theorem getLsbD_rangeMask {index start finish i : Nat} (low : start / 64 <= index)
    (high : index < (finish + 63) / 64) (inside : i < 64) : (rangeMask index start finish).getLsbD i =
    decide (start <= index * 64 + i /\ index * 64 + i < finish) := by
  have lowSmall : start - index * 64 < 64 := by omega
  simp only [rangeMask, getLsbD_and, getLsbD_not, inside, decide_true,
    Bool.true_and, getLsbD_lowMask lowSmall i]
  by_cases full : min (finish - index * 64) 64 = 64
  · rw [if_pos full, getLsbD_allOnes, Bool.eq_iff_iff]
    simp only [inside, decide_true, Bool.true_and, Bool.not_eq_true', decide_eq_false_iff_not,
      decide_eq_true_eq]
    omega
  · have highSmall : min (finish - index * 64) 64 < 64 := by omega
    rw [if_neg full, getLsbD_lowMask highSmall i, Bool.eq_iff_iff]
    simp only [Bool.and_eq_true, Bool.not_eq_true', decide_eq_false_iff_not, decide_eq_true_eq]
    omega

private theorem block_of_word {start finish index i : Nat}
    (start_le : start <= index * 64 + i) (lt_finish : index * 64 + i < finish) (inside : i < 64) :
    (index * 64 + i) / 64 = index /\ (index * 64 + i) % 64 = i /\
      start / 64 <= index /\ index < (finish + 63) / 64 := by
  omega

theorem allInRange_eq_true_iff : set.allInRange start finish = true <->
    start < finish /\ ∀ req, start <= req -> req < finish -> set.contains req = true := by
  simp only [allInRange, Bool.and_eq_true, decide_eq_true_eq, List.all_eq_true]
  refine and_congr_right fun _ => ⟨fun words req low high => ?_, fun blocks index member => ?_⟩
  · have small : req % 64 < 64 := Nat.mod_lt _ (by decide)
    have member : req / 64 ∈ wordRange start finish := mem_wordRange.mpr (by omega)
    have masked := words _ member
    rw [contains_eq]
    cases found : set.word (req / 64) with
    | none => simp [found] at masked
    | some =>
      rw [found, Option.any_some, beq_iff_eq] at masked
      have selected := getLsbD_rangeMask (mem_wordRange.mp member).1 (mem_wordRange.mp member).2 small
      rw [<- masked, getLsbD_and, decide_eq_true (by omega), Bool.and_eq_true] at selected
      exact selected.1
  · obtain ⟨low, high⟩ := mem_wordRange.mp member
    have some_block : Exists fun req => start <= req /\ req < finish /\ req / 64 = index := by
      by_cases first : start <= index * 64
      · exact ⟨index * 64, by omega⟩
      · exact ⟨start, by omega⟩
    obtain ⟨req, reqLow, reqHigh, reqWord⟩ := some_block
    obtain ⟨w, found, _⟩ := contains_eq_true_iff.mp (blocks req reqLow reqHigh)
    rw [reqWord] at found
    rw [found, Option.any_some, beq_iff_eq]
    refine eq_of_getLsbD_eq fun i inside => ?_
    rw [getLsbD_and, getLsbD_rangeMask low high inside]
    by_cases selected : start <= index * 64 + i /\ index * 64 + i < finish
    · obtain ⟨word_eq, bit_eq, _⟩ := block_of_word selected.1 selected.2 inside
      have held := blocks _ selected.1 selected.2
      rw [contains_eq, word_eq, bit_eq, found, Option.any_some] at held
      simp [held, selected]
    · simp [selected]

theorem anyInRange_eq_true_iff : set.anyInRange start finish = true <->
    Exists fun req => (start <= req /\ req < finish) /\ set.contains req = true := by
  simp only [anyInRange, Bool.and_eq_true, decide_eq_true_eq, List.any_eq_true]
  constructor
  · rintro ⟨_, index, member, masked⟩
    obtain ⟨low, high⟩ := mem_wordRange.mp member
    cases found : set.word index with
    | none => simp [found] at masked
    | some w =>
      rw [found, Option.any_some, bne_iff_ne] at masked
      by_contra none
      refine masked (eq_of_getLsbD_eq fun i inside => ?_)
      rw [getLsbD_and, getLsbD_rangeMask low high inside, getLsbD_zero, Bool.and_eq_false_imp]
      refine fun held => decide_eq_false fun selected => none ⟨index * 64 + i, selected, ?_⟩
      obtain ⟨word_eq, bit_eq, _⟩ := block_of_word selected.1 selected.2 inside
      rw [contains_eq, word_eq, bit_eq, found, Option.any_some, held]
  · rintro ⟨req, ⟨low, high⟩, held⟩
    have small : req % 64 < 64 := Nat.mod_lt _ (by decide)
    have member : req / 64 ∈ wordRange start finish := mem_wordRange.mpr (by omega)
    obtain ⟨w, found, bit⟩ := contains_eq_true_iff.mp held
    refine ⟨by omega, req / 64, member, ?_⟩
    rw [found, Option.any_some, bne_iff_ne]
    intro zero
    have selected := getLsbD_rangeMask (mem_wordRange.mp member).1 (mem_wordRange.mp member).2 small
    have masked := congrArg (getLsbD · (req % 64)) zero
    rw [getLsbD_and, bit, selected, getLsbD_zero, Bool.true_and] at masked
    exact of_decide_eq_false masked (by omega)

/-- One word's share of `removeRange`. -/
private theorem contains_maskWord {start finish index : Nat} (req : Nat)
    (member : index ∈ wordRange start finish) :
    (set.modifyWord index (fun w => w &&& ~~~(rangeMask index start finish))).contains req =
      (set.contains req && !decide (req / 64 = index /\ start <= req /\ req < finish)) := by
  obtain ⟨low, high⟩ := mem_wordRange.mp member
  have small : req % 64 < 64 := Nat.mod_lt _ (by decide)
  simp only [contains_eq, word_modifyWord]
  by_cases near : index = req / 64
  · have block : index * 64 + req % 64 = req := by omega
    rw [if_pos near]
    cases set.word (req / 64) with
    | none => rfl
    | some =>
      simp only [Option.map_some, Option.any_some, getLsbD_and, getLsbD_not,
        getLsbD_rangeMask low high small, small, decide_true, Bool.true_and, block, near.symm,
        true_and]
  · have far : ¬ (req / 64 = index /\ start <= req /\ req < finish) := fun both => near both.1.symm
    rw [if_neg near, decide_eq_false far, Bool.not_false, Bool.and_true]

private theorem contains_maskWords {start finish : Nat} (req : Nat) :
    ∀ (indices : List Nat) (set : ChunkBits), (∀ index ∈ indices, index ∈ wordRange start finish) ->
      (indices.foldl (fun set index =>
        set.modifyWord index (fun w => w &&& ~~~(rangeMask index start finish))) set).contains req =
        (set.contains req && !decide (req / 64 ∈ indices /\ start <= req /\ req < finish))
  | [], set, _ => by simp
  | index :: indices, set, inside => by
      rw [List.foldl_cons, contains_maskWords req indices _
        (fun other member => inside other (List.mem_cons_of_mem _ member)),
        contains_maskWord set req (inside index List.mem_cons_self)]
      simp only [List.mem_cons, or_and_right, Bool.decide_or, Bool.not_or, Bool.and_assoc]

theorem contains_removeRange : (set.removeRange start finish).contains req =
    (set.contains req && !decide (start <= req /\ req < finish)) := by
  rw [removeRange]
  by_cases empty : finish <= start
  · have outside : ¬ (start <= req /\ req < finish) := by omega
    rw [if_pos empty, decide_eq_false outside, Bool.not_false, Bool.and_true]
  · rw [if_neg empty, contains_maskWords req _ set (fun _ member => member)]
    congr 2
    rw [decide_eq_decide, mem_wordRange]
    omega

@[simp] theorem wordCount_removeRange : (set.removeRange start finish).wordCount = set.wordCount := by
  rw [removeRange]
  split
  · rfl
  generalize wordRange start finish = indices
  induction indices generalizing set with
  | nil => rfl
  | cons index indices ih => rw [List.foldl_cons, ih, wordCount_modifyWord]

/-- A call on a set of `bits` blocks. -/
inductive Call (bits : Nat)
  | insert (req : Fin bits)
  | insertNew (req : Fin bits)
  | remove (req : Fin bits)
  | contains (req : Fin bits)
  | removeRange (start finish : Nat)
  | allInRange (start finish : Nat)
  | anyInRange (start finish : Nat)

variable {bits : Nat}

def call (set : ChunkBits) : Call bits -> Option Bool × ChunkBits
  | .insert req => (none, set.insert req)
  | .insertNew req => ((set.insertNew req).1, (set.insertNew req).2)
  | .remove req => (none, set.remove req)
  | .contains req => (set.contains req, set)
  | .removeRange start finish => (none, set.removeRange start finish)
  | .allInRange start finish => (set.allInRange start finish, set)
  | .anyInRange start finish => (set.anyInRange start finish, set)

def plainCall (plain : Finset Nat) : Call bits -> Option Bool × Finset Nat
  | .insert req => (none, {req.val} ∪ plain)
  | .insertNew req => (decide (req.val ∉ plain), {req.val} ∪ plain)
  | .remove req => (none, plain.erase req)
  | .contains req => (decide (req.val ∈ plain), plain)
  | .removeRange start finish => (none, plain \ Finset.Ico start finish)
  | .allInRange start finish => (decide (start < finish /\ Finset.Ico start finish ⊆ plain), plain)
  | .anyInRange start finish =>
    (decide (Exists fun req => req ∈ Finset.Ico start finish /\ req ∈ plain), plain)

/-- What calls in sequence return. -/
def answers {State : Type} (step : State -> Call bits -> Option Bool × State) :
    State -> List (Call bits) -> List (Option Bool)
  | _, [] => []
  | state, call :: calls => (step state call).1 :: answers step (step state call).2 calls

def Holds (bits : Nat) (set : ChunkBits) (plain : Finset Nat) : Prop :=
  set.wordCount = (new.init bits).wordCount /\ ∀ req, set.contains req = decide (req ∈ plain)

theorem Holds.call {plain : Finset Nat} (holds : Holds bits set plain) (call : Call bits) :
    (set.call call).1 = (plainCall plain call).1 /\
    Holds bits (set.call call).2 (plainCall plain call).2 := by
  obtain ⟨size, same⟩ := holds
  have inserted (req : Fin bits) : Holds bits (set.insert req) ({req.val} ∪ plain) := by
    refine ⟨by rw [wordCount_insert, size], fun other => ?_⟩
    rw [contains_insert, same, covers_of_wordCount size, Bool.eq_iff_iff]
    by_cases here : req.val = other
    · simp [<- here, covers_init_new req.isLt]
    · simp [here, Ne.symm here]
  cases call with
  | insert req => exact ⟨rfl, inserted req⟩
  | insertNew req =>
    rw [ChunkBits.call, insertNew_eq]
    exact ⟨by simp [plainCall, same], inserted req⟩
  | remove req =>
    refine ⟨rfl, (wordCount_remove ..).trans size, fun other => ?_⟩
    rw [ChunkBits.call, contains_remove, same, Bool.eq_iff_iff]
    by_cases here : req.val = other
    · simp [plainCall, here]
    · simp [plainCall, here, Ne.symm here]
  | contains req => exact ⟨congrArg some (same req), size, same⟩
  | removeRange start finish =>
    refine ⟨rfl, (wordCount_removeRange ..).trans size, fun other => ?_⟩
    rw [ChunkBits.call, contains_removeRange, same, Bool.eq_iff_iff]
    simp [plainCall]
  | allInRange start finish =>
    refine ⟨congrArg some ?_, size, same⟩
    rw [Bool.eq_iff_iff, allInRange_eq_true_iff]
    simp [same, Finset.subset_iff]
  | anyInRange start finish =>
    refine ⟨congrArg some ?_, size, same⟩
    rw [Bool.eq_iff_iff, anyInRange_eq_true_iff]
    simp [same]

/-- A set that has its size answers every sequence of calls as a plain set does. -/
theorem answers_eq_plain (bits : Nat) (calls : List (Call bits)) :
    answers ChunkBits.call (new.init bits) calls = answers plainCall ∅ calls := by
  have same (set : ChunkBits) (plain : Finset Nat) (holds : Holds bits set plain) :
      answers ChunkBits.call set calls = answers plainCall plain calls := by
    induction calls generalizing set plain with
    | nil => rfl
    | cons call calls ih =>
      have next := holds.call set call
      rw [answers, answers, next.1, ih _ _ next.2]
  exact same _ _ ⟨rfl, fun req => by simp⟩

end ChunkBits
end TorrentPlayer.Core
