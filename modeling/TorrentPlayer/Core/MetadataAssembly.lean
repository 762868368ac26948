import Mathlib.Data.List.Induction
import TorrentPlayer.Core.Metadata

namespace TorrentPlayer.Core

open Library Meta List

namespace MetadataExchange

/-!
# What an assembled info dictionary is worth

An exchange is either still collecting, or it has verified the buffer and then
never changes again.  While it collects, the completion vector has one flag for
every piece of the buffer and never all of them are set: the call that sets the
last one verifies the buffer, and a failure clears them all.

A piece that a peer got wrong stays marked until then, also when the size is
negotiated again.  So one round of right pieces is enough only when no wrong
piece is marked; two rounds are always enough.
-/

variable (digests : Digests) (expectedV1 : Option InfoHash) (expectedV2 : Option InfoHashV2)

/-- The hashes are the expected ones, or a shortened v2 hash was given in the
v1 slot alone. -/
def HashesMatch (bytes : List UInt8) (info : Meta.Info) : Prop :=
  match expectedV1, expectedV2 with
  | some exp1, none =>
    digests.infoHashV1 bytes = exp1 ∨
      (digests.infoHashV1 bytes ≠ exp1 /\ (digests.infoHashV2 bytes).toShort = exp1 /\ info.hasV2 = true)
  | some exp1, some exp2 => digests.infoHashV1 bytes = exp1 /\ digests.infoHashV2 bytes = exp2
  | none, some exp2 => digests.infoHashV2 bytes = exp2
  | none, none => False

/-- The bytes are an info dictionary with the expected hashes. -/
def Accepts (bytes : List UInt8) : Prop :=
  Exists fun info : Meta.Info =>
    parseInfo bytes = .ok info /\ HashesMatch digests expectedV1 expectedV2 bytes info

theorem checkHashes_eq_ok_iff (bytes : List UInt8) (info : Meta.Info) :
    checkHashes expectedV1 expectedV2 (digests.infoHashV1 bytes) (digests.infoHashV2 bytes) info =
      .ok () <-> HashesMatch digests expectedV1 expectedV2 bytes info := by
  unfold checkHashes HashesMatch
  cases expectedV1 with
  | none =>
    cases expectedV2 with
    | none => simp
    | some => split <;> simp_all
  | some exp1 =>
    cases expectedV2 with
    | none =>
      by_cases first : digests.infoHashV1 bytes = exp1
      · simp [first]
      by_cases short : (digests.infoHashV2 bytes).toShort = exp1
      · by_cases second : info.hasV2 = true <;> simp [first, short, second]
      · simp [first, short]
    | some exp2 =>
      by_cases first : digests.infoHashV1 bytes = exp1
      · by_cases second : digests.infoHashV2 bytes = exp2 <;> simp [first, second]
      · simp [first]

variable {digests} {expectedV1} {expectedV2}

theorem ne_nil_of_accepts {bytes : List UInt8}
    (accepts : Accepts digests expectedV1 expectedV2 bytes) : bytes ≠ [] := by
  rcases accepts with ⟨info, parsed, _⟩
  intro empty
  rw [empty] at parsed
  cases parsed

def report (digests : Digests) (bytes : List UInt8) (info : Meta.Info) : VerifiedMetadata where
  info := info
  infoBytes := bytes
  infoHashV1 := digests.infoHashV1 bytes
  infoHashV2 := digests.infoHashV2 bytes

structure Collecting (expectedV1 : Option InfoHash) (expectedV2 : Option InfoHashV2)
    (exchange : MetadataExchange) : Prop where
  verified : exchange.verified = none
  first : exchange.expectedV1 = expectedV1
  second : exchange.expectedV2 = expectedV2
  flags : exchange.completed.length = chunkCount metadataPieceSize exchange.bytes.length
  size : exchange.bytes.length <= maxMetadataSize.toNat
  missing : exchange.haveAllPieces = false

structure Settled (digests : Digests) (expectedV1 : Option InfoHash)
    (expectedV2 : Option InfoHashV2) (exchange : MetadataExchange) : Prop where
  reported : Exists fun info : Meta.Info =>
    exchange.verified = some (report digests exchange.bytes info) /\ parseInfo exchange.bytes = .ok info /\
      HashesMatch digests expectedV1 expectedV2 exchange.bytes info
  size : exchange.bytes.length <= maxMetadataSize.toNat

variable {exchange : MetadataExchange} {piece : UInt32}

theorem Collecting.hasInfo (collecting : Collecting expectedV1 expectedV2 exchange) :
    exchange.hasInfo = false := by
  rw [MetadataExchange.hasInfo, collecting.verified]
  rfl

theorem Settled.hasInfo (settled : Settled digests expectedV1 expectedV2 exchange) :
    exchange.hasInfo = true := by
  rcases settled.reported with ⟨info, verified, _⟩
  rw [MetadataExchange.hasInfo, verified]
  rfl

theorem collecting_new : Collecting expectedV1 expectedV2 (new expectedV1 expectedV2) := by
  exact ⟨rfl, rfl, rfl, by simp [new, chunkCount, metadataPieceSize], Nat.zero_le _, rfl⟩

theorem haveAllPieces_eq_false_iff (collects : exchange.hasInfo = false) : exchange.haveAllPieces = false <->
    (∀ k < exchange.completed.length, exchange.completed[k]? = some true) -> exchange.completed = [] := by
  rw [haveAllPieces, collects]
  constructor
  · intro missing all
    have every : exchange.completed.all id = true := by
      rw [all_eq_true]
      intro flag member
      rcases mem_iff_getElem?.mp member with ⟨k, found⟩
      have below : k < exchange.completed.length := (List.getElem?_eq_some_iff.mp found).1
      have set := all k below
      rw [found] at set
      exact Option.some.inj set
    rw [every] at missing
    simpa using missing
  · intro closed
    cases every : exchange.completed.all id with
    | false => exact Bool.and_false _
    | true =>
      have empty := closed (fun k below => by
        rw [getElem?_eq_getElem below]
        exact congrArg some (all_eq_true.mp every _ (getElem_mem below)))
      rw [empty]
      rfl

theorem haveAllPieces_of_cleared (collects : exchange.hasInfo = false) {k : Nat}
    (cleared : exchange.completed[k]? = some false) : exchange.haveAllPieces = false := by
  rw [haveAllPieces_eq_false_iff collects]
  intro all
  have below : k < exchange.completed.length := (List.getElem?_eq_some_iff.mp cleared).1
  rw [all k below] at cleared
  cases cleared

/-! ## One call -/

theorem apply_of_hasInfo (known : exchange.hasInfo = true) (call : Call) :
    exchange.apply digests call = exchange := by
  cases call with
  | setSize => rw [apply, setSize, if_pos known]
  | onData => rw [apply, onData, if_pos known]

theorem run_of_hasInfo (known : exchange.hasInfo = true) (calls : List Call) :
    exchange.run digests calls = exchange := by
  induction calls with
  | nil => rfl
  | cons call rest ih =>
    rw [run, foldl_cons, apply_of_hasInfo known]
    exact ih

theorem run_append (exchange : MetadataExchange) (earlier later : List Call) :
    exchange.run digests (earlier ++ later) = (exchange.run digests earlier).run digests later :=
  foldl_append

/-- The buffer after a successful verification. -/
def settle (digests : Digests) (exchange : MetadataExchange) (info : Meta.Info) : MetadataExchange where
  expectedV1 := some (exchange.expectedV1.getD (digests.infoHashV1 exchange.bytes))
  expectedV2 := some (exchange.expectedV2.getD (digests.infoHashV2 exchange.bytes))
  bytes := exchange.bytes
  completed := []
  verified := some (report digests exchange.bytes info)

/-- Everything the end of `on_data` can do. -/
theorem finishData_cases (digests : Digests) (exchange : MetadataExchange) :
    (exchange.haveAllPieces = false /\ (exchange.finishData digests).2 = exchange) \/
    (Exists fun info : Meta.Info => parseInfo exchange.bytes = .ok info /\
        HashesMatch digests exchange.expectedV1 exchange.expectedV2 exchange.bytes info /\
        (exchange.finishData digests).2 = exchange.settle digests info) \/
    (exchange.haveAllPieces = true /\
      ¬Accepts digests exchange.expectedV1 exchange.expectedV2 exchange.bytes /\
      (exchange.finishData digests).2 = exchange.invalidate) := by
  unfold finishData
  cases all : exchange.haveAllPieces with
  | false => exact .inl ⟨rfl, by rw [if_pos rfl]⟩
  | true =>
    right
    unfold verifyBytes
    cases parsed : parseInfo exchange.bytes with
    | error =>
      refine .inr ⟨rfl, ?_, rfl⟩
      rintro ⟨info, other, _⟩
      rw [parsed] at other
      cases other
    | ok info =>
      dsimp only
      cases checked : checkHashes exchange.expectedV1 exchange.expectedV2
          (digests.infoHashV1 exchange.bytes) (digests.infoHashV2 exchange.bytes) info with
      | ok =>
        have hashes := (checkHashes_eq_ok_iff _ _ _ _ _).mp checked
        exact .inl ⟨info, rfl, hashes, rfl⟩
      | error =>
        refine .inr ⟨rfl, ?_, rfl⟩
        rintro ⟨other, same, hashes⟩
        rw [parsed] at same
        rw [<- Except.ok.inj same, <- checkHashes_eq_ok_iff, checked] at hashes
        cases hashes

variable {data : List UInt8}

theorem length_savePiece (within : piece.toNat * metadataPieceSize + data.length <= exchange.bytes.length) :
    (exchange.savePiece piece data).bytes.length = exchange.bytes.length :=
  length_overwrite within

section
variable (collecting : Collecting expectedV1 expectedV2 exchange)
include collecting

variable (expected : piece.toNat < exchange.completed.length)
include expected

variable (fits : data.length = pieceSize exchange.bytes.length piece)
include fits

theorem within_of_pieceSize : piece.toNat * metadataPieceSize < exchange.bytes.length /\ data.length =
      min metadataPieceSize (exchange.bytes.length - piece.toNat * metadataPieceSize) := by
  rw [collecting.flags, lt_chunkCount_iff (by decide)] at expected
  rw [pieceSize, if_neg (Nat.not_le.mpr expected), Nat.min_comm] at fits
  exact ⟨expected, fits⟩

/-- The state after a piece that did not complete the buffer. -/
theorem Collecting.savePiece (missing : (exchange.savePiece piece data).haveAllPieces = false) :
    Collecting expectedV1 expectedV2 (exchange.savePiece piece data) := by
  have inside := within_of_pieceSize collecting expected fits
  have length : (exchange.savePiece piece data).bytes.length = exchange.bytes.length :=
    length_savePiece (by omega)
  refine { collecting with flags := ?_, size := ?_, missing := missing }
  · rw [length, <- collecting.flags]
    exact length_set
  · rw [length]
    exact collecting.size

/-- The state after a piece that completed a buffer with the wrong hash. -/
theorem Collecting.invalidate :
    Collecting expectedV1 expectedV2 (exchange.savePiece piece data).invalidate := by
  have inside := within_of_pieceSize collecting expected fits
  have length : (exchange.savePiece piece data).bytes.length = exchange.bytes.length :=
    length_savePiece (by omega)
  refine ⟨rfl, collecting.first, collecting.second, ?_, ?_, ?_⟩
  · have same : (exchange.savePiece piece data).invalidate.bytes.length = exchange.bytes.length := length
    rw [same, <- collecting.flags]
    simp [MetadataExchange.invalidate, MetadataExchange.savePiece]
  · exact length.trans_le collecting.size
  · refine haveAllPieces_of_cleared rfl (k := piece.toNat) ?_
    simp [MetadataExchange.invalidate, MetadataExchange.savePiece, expected]

end

theorem settled_settle {info : Meta.Info}
    (first : exchange.expectedV1 = expectedV1) (second : exchange.expectedV2 = expectedV2)
    (size : exchange.bytes.length <= maxMetadataSize.toNat) (parsed : parseInfo exchange.bytes = .ok info)
    (hashes : HashesMatch digests exchange.expectedV1 exchange.expectedV2 exchange.bytes info) :
    Settled digests expectedV1 expectedV2 (exchange.settle digests info) := by
  rw [first, second] at hashes
  exact ⟨⟨info, rfl, parsed, hashes⟩, size⟩

theorem Collecting.setSize (collecting : Collecting expectedV1 expectedV2 exchange)
    (size : UInt32) : Collecting expectedV1 expectedV2 (exchange.setSize size).2 := by
  unfold MetadataExchange.setSize
  rw [if_neg (ne_true_of_eq_false collecting.hasInfo)]
  by_cases zero : size = 0
  · rw [if_pos zero]
    exact collecting
  rw [if_neg zero]
  by_cases large : maxMetadataSize < size
  · rw [if_pos large]
    exact collecting
  rw [if_neg large]
  by_cases same : exchange.bytes.length = size.toNat
  · rw [if_pos same]
    exact collecting
  rw [if_neg same]
  have positive : 0 < size.toNat := by
    rw [Nat.pos_iff_ne_zero]
    exact fun none => zero (UInt32.toNat_inj.mp none)
  have some : 0 < chunkCount metadataPieceSize size.toNat := by
    rw [lt_chunkCount_iff (by decide)]
    omega
  refine { collecting with flags := ?_, size := ?_, missing := ?_ }
  · simp
  · rw [length_replicate]
    exact UInt32.le_iff_toNat_le.mp (UInt32.not_lt.mp large)
  · refine haveAllPieces_of_cleared collecting.hasInfo (k := 0) ?_
    simp [some]

theorem Collecting.onData (collecting : Collecting expectedV1 expectedV2 exchange) (piece : UInt32)
    (data : List UInt8) : Collecting expectedV1 expectedV2 (exchange.onData digests piece data).2 \/
    Settled digests expectedV1 expectedV2 (exchange.onData digests piece data).2 := by
  unfold MetadataExchange.onData
  rw [if_neg (ne_true_of_eq_false collecting.hasInfo)]
  by_cases unexpected : exchange.completed.length <= piece.toNat
  · rw [if_pos unexpected]
    exact .inl collecting
  rw [if_neg unexpected]
  by_cases bad : data.length ≠ pieceSize exchange.bytes.length piece
  · rw [if_pos bad]
    exact .inl collecting
  rw [if_neg bad]
  have expected := Nat.lt_of_not_le unexpected
  have fits := Decidable.not_not.mp bad
  have inside := within_of_pieceSize collecting expected fits
  rcases finishData_cases digests (exchange.savePiece piece data) with
    ⟨missing, kept⟩ | ⟨info, parsed, hashes, done⟩ | ⟨_, _, failed⟩
  · rw [kept]
    exact .inl (collecting.savePiece expected fits missing)
  · rw [done]
    refine .inr (settled_settle collecting.first collecting.second ?_ parsed hashes)
    rw [length_savePiece (by omega)]
    exact collecting.size
  · rw [failed]
    exact .inl (collecting.invalidate expected fits)

theorem run_cases (calls : List Call) :
    Collecting expectedV1 expectedV2 ((new expectedV1 expectedV2).run digests calls) \/
    Settled digests expectedV1 expectedV2 ((new expectedV1 expectedV2).run digests calls) := by
  induction calls using List.reverseRecOn with
  | nil => exact .inl collecting_new
  | append_singleton earlier call ih =>
    rw [run_append]
    rcases ih with collecting | settled
    · cases call with
      | setSize size => exact .inl (collecting.setSize size)
      | onData piece data => exact collecting.onData piece data
    · rw [run_of_hasInfo settled.hasInfo]
      exact .inr settled

theorem serve_of_hasInfo (known : exchange.hasInfo = true) (k : UInt32) : exchange.serve k = if k.toNat <
    exchange.pieceCount then .data (chunk metadataPieceSize k.toNat exchange.bytes) else .reject := by
  have positive : 0 < metadataPieceSize := by decide
  unfold serve havePiece pieceCount
  rw [if_pos known]
  by_cases below : k.toNat * metadataPieceSize < exchange.bytes.length
  · rw [if_neg (by simp [below]), if_pos ((lt_chunkCount_iff positive _ _).mpr below)]
    rw [pieceSize, if_neg (Nat.not_le.mpr below), Nat.min_comm, <- length_drop]
    exact congrArg Serve.data take_eq_take_min.symm
  · rw [if_pos (by simp [below]),
      if_neg (fun inside => below ((lt_chunkCount_iff positive _ _).mp inside))]

/-! ## Rounds of right pieces -/

section Rounds
variable {truth : List UInt8}

/-- No piece that is marked under the true length differs from the truth. -/
def Untainted (truth : List UInt8) (exchange : MetadataExchange) : Prop :=
  exchange.bytes.length = truth.length -> ∀ k, exchange.completed[k]? = some true ->
      chunk metadataPieceSize k exchange.bytes = chunk metadataPieceSize k truth

/-- A right piece went into the buffer, which is still being collected.  When
it completed the buffer, the buffer was wrong. -/
structure Delivered (digests : Digests) (expectedV1 : Option InfoHash)
    (expectedV2 : Option InfoHashV2) (truth : List UInt8) (k : Nat)
    (exchange after : MetadataExchange) : Prop where
  collecting : Collecting expectedV1 expectedV2 after
  length : after.bytes.length = truth.length
  here : chunk metadataPieceSize k after.bytes = chunk metadataPieceSize k truth
  others : ∀ j, j ≠ k -> chunk metadataPieceSize j after.bytes = chunk metadataPieceSize j exchange.bytes
  flags : after.completed = exchange.completed.set k true ∨
    ((∀ j < exchange.completed.length, (exchange.completed.set k true)[j]? = some true) /\
      ¬Accepts digests expectedV1 expectedV2 after.bytes)

theorem toNat_toUInt32_of_le {k size : Nat} (small : size <= maxMetadataSize.toNat)
    (below : k * metadataPieceSize < size) : k.toUInt32.toNat = k := by
  have limit : maxMetadataSize.toNat = 16777216 := by decide
  have piece : metadataPieceSize = 16384 := by decide
  rw [piece] at below
  exact Nat.mod_eq_of_lt (by omega)

theorem Collecting.deliver (digests : Digests) (collecting : Collecting expectedV1 expectedV2 exchange)
    (length : exchange.bytes.length = truth.length) {k : Nat}
    (below : k < chunkCount metadataPieceSize truth.length) :
    (exchange.apply digests (delivery truth k)).hasInfo = true \/
    Delivered digests expectedV1 expectedV2 truth k exchange
      (exchange.apply digests (delivery truth k)) := by
  have start : k * metadataPieceSize < exchange.bytes.length := by
    rw [length]
    exact (lt_chunkCount_iff (by decide) _ _).mp below
  have index : k.toUInt32.toNat = k := toNat_toUInt32_of_le collecting.size start
  have expected : k.toUInt32.toNat < exchange.completed.length := by
    rw [index, collecting.flags, length]
    exact below
  let data := chunk metadataPieceSize k truth
  have fits : data.length = pieceSize exchange.bytes.length k.toUInt32 := by
    rw [length_chunk, pieceSize, index, if_neg (Nat.not_le.mpr start), length, Nat.min_comm]
  have cut : data.length = min metadataPieceSize (exchange.bytes.length - k * metadataPieceSize) := by
    rw [length_chunk, length]
  have saved : (exchange.savePiece k.toUInt32 data).bytes =
      overwrite (k * metadataPieceSize) data exchange.bytes := by
    rw [MetadataExchange.savePiece, index]
  have flagged : (exchange.savePiece k.toUInt32 data).completed = exchange.completed.set k true := by
    rw [MetadataExchange.savePiece, index]
  have savedLength : (exchange.savePiece k.toUInt32 data).bytes.length = truth.length := by
    rw [saved, length_overwrite (by omega), length]
  have here := chunk_overwrite_self cut start
  have others : ∀ j, j ≠ k -> _ := fun j differs => chunk_overwrite_other cut start differs
  rw [<- saved] at here
  simp only [<- saved] at others
  rw [delivery, apply, MetadataExchange.onData, if_neg (ne_true_of_eq_false collecting.hasInfo),
    if_neg (Nat.not_le.mpr expected), if_neg (fun differs => differs fits)]
  rcases finishData_cases digests (exchange.savePiece k.toUInt32 data) with
    ⟨missing, kept⟩ | ⟨info, _, _, done⟩ | ⟨all, refused, failed⟩
  · rw [kept]
    exact .inr ⟨collecting.savePiece expected fits missing, savedLength, here, others, Or.inl flagged⟩
  · rw [done]
    exact .inl rfl
  · rw [failed]
    refine .inr ⟨collecting.invalidate expected fits, savedLength, here, others, Or.inr ⟨?_, ?_⟩⟩
    · intro j inside
      rw [<- flagged]
      rw [haveAllPieces, if_neg (by rw [MetadataExchange.hasInfo,
        MetadataExchange.savePiece, collecting.verified]; exact Bool.noConfusion)] at all
      have every := (Bool.and_eq_true _ _ ▸ all).2
      have bound : j < (exchange.savePiece k.toUInt32 data).completed.length := by
        rw [flagged, length_set]
        exact inside
      rw [getElem?_eq_getElem bound]
      exact congrArg some (all_eq_true.mp every _ (getElem_mem bound))
    · have first : exchange.expectedV1 = expectedV1 := collecting.first
      have second : exchange.expectedV2 = expectedV2 := collecting.second
      rw [<- first, <- second]
      exact refused

section
variable {after : MetadataExchange} {k : Nat}
    (delivered : Delivered digests expectedV1 expectedV2 truth k exchange after)
include delivered

theorem Delivered.right (j : Nat)
    (right : chunk metadataPieceSize j exchange.bytes = chunk metadataPieceSize j truth) :
    chunk metadataPieceSize j after.bytes = chunk metadataPieceSize j truth := by
  by_cases same : j = k
  · rw [same]
    exact delivered.here
  · rw [delivered.others j same]
    exact right

/-- A right piece keeps an untainted buffer untainted, and is marked. -/
theorem Delivered.untainted (accepts : Accepts digests expectedV1 expectedV2 truth)
    (collecting : Collecting expectedV1 expectedV2 exchange)
    (length : exchange.bytes.length = truth.length) (below : k < chunkCount metadataPieceSize truth.length)
    (untainted : Untainted truth exchange) : Untainted truth after /\ after.completed[k]? = some true /\
    ∀ j : Nat, exchange.completed[j]? = some true -> after.completed[j]? = some true := by
  have flags := collecting.flags
  rw [length] at flags
  have own : (exchange.completed.set k true)[k]? = some true :=
    getElem?_set_self (by rw [flags]; exact below)
  have right : ∀ j, (exchange.completed.set k true)[j]? = some true ->
      chunk metadataPieceSize j after.bytes = chunk metadataPieceSize j truth := by
    intro j set
    by_cases same : j = k
    · rw [same]
      exact delivered.here
    · rw [getElem?_set_ne (Ne.symm same)] at set
      exact delivered.right j (untainted length j set)
  rcases delivered.flags with kept | ⟨all, refused⟩
  · rw [Untainted, kept]
    refine ⟨fun _ => right, own, fun j set => ?_⟩
    by_cases same : j = k
    · rw [same, own]
    · rw [getElem?_set_ne (Ne.symm same), set]
  exfalso
  apply refused
  have whole : after.bytes = truth := by
    refine eq_of_chunks (show 0 < metadataPieceSize by decide) delivered.length ?_
    intro j below
    rw [<- flags] at below
    exact right j (all j below)
  rw [whole]
  exact accepts

end

/-- A round of right pieces brings about for each of them what one delivery does, unless
the exchange has settled meanwhile. -/
theorem run_deliveries (good : MetadataExchange -> Prop) (done : MetadataExchange -> Nat -> Prop)
    (deliver : ∀ {exchange after first}, Collecting expectedV1 expectedV2 exchange ->
      exchange.bytes.length = truth.length -> first < chunkCount metadataPieceSize truth.length ->
      Delivered digests expectedV1 expectedV2 truth first exchange after -> good exchange ->
      good after /\ done after first /\ ∀ k, done exchange k -> done after k) (order : List Nat) :
    ∀ {exchange : MetadataExchange}, Collecting expectedV1 expectedV2 exchange ->
      exchange.bytes.length = truth.length -> good exchange ->
      (∀ k ∈ order, k < chunkCount metadataPieceSize truth.length) ->
      let after := exchange.run digests (order.map (delivery truth))
      after.hasInfo = true \/ (Collecting expectedV1 expectedV2 after /\
        after.bytes.length = truth.length /\ ∀ k, k ∈ order \/ done exchange k -> done after k) := by
  induction order with
  | nil =>
    intro exchange collecting length _ _
    exact .inr ⟨collecting, length, fun k cause => cause.resolve_left not_mem_nil⟩
  | cons first rest ih =>
    intro exchange collecting length before below
    have here := below first mem_cons_self
    rw [map_cons, run, foldl_cons, <- run]
    rcases collecting.deliver digests length here with known | delivered
    · rw [run_of_hasInfo known]
      exact .inl known
    rcases deliver collecting length here delivered before with ⟨after, own, others⟩
    rcases ih delivered.collecting delivered.length after
        (fun k member => below k (mem_cons_of_mem _ member)) with known | later
    · exact .inl known
    · refine .inr ⟨later.1, later.2.1, ?_⟩
      rintro k (member | old)
      · rcases mem_cons.mp member with rfl | inRest
        · exact later.2.2 _ (Or.inr own)
        · exact later.2.2 k (Or.inl inRest)
      · exact later.2.2 k (Or.inr (others k old))

section
variable (accepts : Accepts digests expectedV1 expectedV2 truth)
  (collecting : Collecting expectedV1 expectedV2 exchange)
  (length : exchange.bytes.length = truth.length)
include accepts collecting length

theorem settles_of_untainted (untainted : Untainted truth exchange) {order : List Nat}
    (complete : order.Perm (List.range (chunkCount metadataPieceSize truth.length))) :
    (exchange.run digests (order.map (delivery truth))).hasInfo = true := by
  rcases run_deliveries (Untainted truth) (fun exchange k => exchange.completed[k]? = some true)
      (fun collecting length here delivered => delivered.untainted accepts collecting length here)
      order collecting length untainted
      (fun k member => mem_range.mp (complete.mem_iff.mp member)) with known | marked
  · exact known
  · exfalso
    have flags := marked.1.flags
    rw [marked.2.1] at flags
    have empty := (haveAllPieces_eq_false_iff marked.1.hasInfo).mp marked.1.missing (by
      intro k below
      rw [flags] at below
      exact marked.2.2 k (Or.inl (complete.mem_iff.mpr (mem_range.mpr below))))
    rw [empty, length_nil] at flags
    have positive : 0 < truth.length := length_pos_iff.mpr (ne_nil_of_accepts accepts)
    have some : 0 < chunkCount metadataPieceSize truth.length := by
      rw [lt_chunkCount_iff (by decide)]
      omega
    omega

theorem settles_of_two_rounds {first second : List Nat}
    (completeFirst : first.Perm (List.range (chunkCount metadataPieceSize truth.length)))
    (completeSecond : second.Perm (List.range (chunkCount metadataPieceSize truth.length))) :
    (exchange.run digests (first.map (delivery truth) ++ second.map (delivery truth))).hasInfo = true := by
  rw [run_append]
  rcases run_deliveries (fun _ => True)
      (fun exchange k => chunk metadataPieceSize k exchange.bytes = chunk metadataPieceSize k truth)
      (fun _ _ _ delivered _ => ⟨trivial, delivered.here, delivered.right⟩) first collecting length trivial
      (fun k member => mem_range.mp (completeFirst.mem_iff.mp member)) with known | right
  · rw [run_of_hasInfo known]
    exact known
  · have whole : (exchange.run digests (first.map (delivery truth))).bytes = truth := by
      refine eq_of_chunks (show 0 < metadataPieceSize by decide) right.2.1 ?_
      intro k below
      exact right.2.2 k (Or.inl (completeFirst.mem_iff.mpr (mem_range.mpr below)))
    refine settles_of_untainted accepts right.1 right.2.1 ?_ completeSecond
    intro _ k _
    rw [whole]

end

/-- The true length prepares the buffer, and keeps it when it has that length. -/
theorem setSize_true_length (collecting : Collecting expectedV1 expectedV2 exchange)
    (nonempty : truth ≠ []) (small : truth.length <= maxMetadataSize.toNat) :
    (exchange.setSize truth.length.toUInt32).2.bytes.length = truth.length /\
    (Untainted truth exchange -> Untainted truth (exchange.setSize truth.length.toUInt32).2) := by
  have limit : maxMetadataSize.toNat = 16777216 := by decide
  have size : truth.length.toUInt32.toNat = truth.length := by exact Nat.mod_eq_of_lt (by omega)
  have positive : 0 < truth.length := length_pos_iff.mpr nonempty
  have notZero : truth.length.toUInt32 ≠ 0 := by
    intro zero
    rw [zero] at size
    have none : (0 : UInt32).toNat = 0 := rfl
    omega
  have notLarge : ¬maxMetadataSize < truth.length.toUInt32 := by
    rw [UInt32.lt_iff_toNat_lt]
    omega
  unfold MetadataExchange.setSize
  rw [if_neg (ne_true_of_eq_false collecting.hasInfo), if_neg notZero, if_neg notLarge, size]
  by_cases same : exchange.bytes.length = truth.length
  · rw [if_pos same]
    exact ⟨same, id⟩
  · rw [if_neg same]
    refine ⟨length_replicate, fun _ _ k set => ?_⟩
    rw [getElem?_replicate] at set
    split at set <;> cases set

end Rounds

/-- Whenever an exchange reports its info, the report is about bytes with the
expected hashes, later calls change nothing, and exactly the pieces of these
bytes are served.  While it does not, the true length followed by the true
pieces in any order settles it when no marked piece of that length is wrong,
and a second round of them settles it in any case. -/
theorem metadata_verified_and_reached (digests : Digests) (expectedV1 : Option InfoHash)
    (expectedV2 : Option InfoHashV2) (calls : List Call) (exchange : MetadataExchange)
    (reached : exchange = (new expectedV1 expectedV2).run digests calls) :
    (forall verified, exchange.verified = some verified -> exchange.infoBytes = some verified.infoBytes ∧
        parseInfo verified.infoBytes = .ok verified.info ∧
        HashesMatch digests expectedV1 expectedV2 verified.infoBytes verified.info ∧
        (forall later, exchange.run digests later = exchange) ∧
        (List.range exchange.pieceCount).flatMap
          (fun k => (exchange.serve k.toUInt32).bytes) = verified.infoBytes ∧
        forall k : UInt32, exchange.serve k = .reject <-> exchange.pieceCount <= k.toNat) ∧
    (exchange.verified = none -> forall truth, Accepts digests expectedV1 expectedV2 truth ->
        truth.length <= maxMetadataSize.toNat -> forall order : List Nat,
          order.Perm (List.range (chunkCount metadataPieceSize truth.length)) ->
          (Untainted truth exchange -> (exchange.run digests (.setSize truth.length.toUInt32 ::
              order.map (delivery truth))).hasInfo = true) ∧ forall again : List Nat,
            again.Perm (List.range (chunkCount metadataPieceSize truth.length)) ->
            (exchange.run digests (.setSize truth.length.toUInt32 ::
              (order.map (delivery truth) ++ again.map (delivery truth)))).hasInfo = true) := by
  have state : Collecting expectedV1 expectedV2 exchange \/
      Settled digests expectedV1 expectedV2 exchange := by
    rw [reached]
    exact run_cases calls
  refine ⟨?_, ?_⟩
  · intro verified known
    rcases state with collecting | settled
    · rw [collecting.verified] at known
      cases known
    have info := settled.hasInfo
    rcases settled.reported with ⟨parsedInfo, told, parsed, hashes⟩
    rw [known] at told
    have same : verified = report digests exchange.bytes parsedInfo := Option.some.inj told
    subst same
    refine ⟨?_, parsed, hashes, run_of_hasInfo info, ?_, ?_⟩
    · rw [infoBytes, if_pos info]
      rfl
    · have served : forall k, k ∈ List.range exchange.pieceCount ->
          (exchange.serve k.toUInt32).bytes = chunk metadataPieceSize k exchange.bytes := by
        intro k member
        have below := mem_range.mp member
        have start : k * metadataPieceSize < exchange.bytes.length :=
          (lt_chunkCount_iff (by decide) _ _).mp below
        rw [serve_of_hasInfo info, toNat_toUInt32_of_le settled.size start, if_pos below]
        rfl
      rw [flatMap_congr served]
      exact flatMap_chunk _ _ (length_le_chunkCount_mul (by decide) _)
    · intro k
      rw [serve_of_hasInfo info]
      by_cases below : k.toNat < exchange.pieceCount
      · rw [if_pos below]
        exact ⟨fun other => Serve.noConfusion other, fun above => absurd below (by omega)⟩
      · rw [if_neg below]
        exact ⟨fun _ => Nat.le_of_not_lt below, fun _ => rfl⟩
  · intro unknown truth accepts small order complete
    rcases state with collecting | settled
    · have prepared := setSize_true_length collecting (ne_nil_of_accepts accepts) small
      have sized := collecting.setSize truth.length.toUInt32
      refine ⟨fun untainted => ?_, fun again completeAgain => ?_⟩
      · exact settles_of_untainted accepts sized prepared.1 (prepared.2 untainted) complete
      · exact settles_of_two_rounds accepts sized prepared.1 complete completeAgain
    · rcases settled.reported with ⟨info, told, _⟩
      rw [unknown] at told
      cases told

/-- A piece as another peer serves it. -/
def servedBy (source : MetadataExchange) (k : Nat) : Call :=
  .onData k.toUInt32 (source.serve k.toUInt32).bytes

theorem accepts_of_fromInfoBytes {source : MetadataExchange} {bytes : List UInt8}
    (known : fromInfoBytes digests bytes expectedV1 expectedV2 = .ok source) :
    Accepts digests expectedV1 expectedV2 bytes /\ source.bytes = bytes /\ source.hasInfo = true := by
  rw [fromInfoBytes, verifyBytes] at known
  split at known
  · cases known
  rename_i verified
  split at verified
  · cases verified
  next info parsed =>
    dsimp only at verified
    split at verified
    · cases verified
    next checked =>
      cases verified
      cases known
      exact ⟨⟨info, parsed, (checkHashes_eq_ok_iff ..).mp checked⟩, rfl, rfl⟩

theorem fromInfoBytes_of_accepts {bytes : List UInt8}
    (accepts : Accepts digests expectedV1 expectedV2 bytes) : Exists fun source =>
      fromInfoBytes digests bytes expectedV1 expectedV2 = .ok source /\ source.bytes = bytes := by
  rcases accepts with ⟨info, parsed, hashes⟩
  rw [fromInfoBytes, verifyBytes, new]
  dsimp only
  rw [parsed]
  dsimp only
  rw [(checkHashes_eq_ok_iff ..).mpr hashes]
  exact ⟨_, rfl, rfl⟩

/-- Whatever other peers sent before, the pieces of one peer that has the info, asked for twice
in any order, settle an exchange that looks for the same hashes. -/
theorem settled_by_peer {bytes : List UInt8} {source : MetadataExchange}
    (known : fromInfoBytes digests bytes expectedV1 expectedV2 = .ok source)
    (small : bytes.length <= maxMetadataSize.toNat) (calls : List Call) {order again : List Nat}
    (complete : order.Perm (List.range source.pieceCount))
    (completeAgain : again.Perm (List.range source.pieceCount)) :
    ((new expectedV1 expectedV2).run digests (calls ++ .setSize bytes.length.toUInt32 ::
      (order.map source.servedBy ++ again.map source.servedBy))).hasInfo = true := by
  rcases accepts_of_fromInfoBytes known with ⟨accepts, rfl, hasInfo⟩
  have served : ∀ {some : List Nat}, some.Perm (List.range source.pieceCount) ->
      some.map source.servedBy = some.map (delivery source.bytes) := by
    intro some complete
    refine map_congr_left fun k member => ?_
    have below := mem_range.mp (complete.mem_iff.mp member)
    have index := toNat_toUInt32_of_le small ((lt_chunkCount_iff (by decide) _ _).mp below)
    rw [servedBy, serve_of_hasInfo hasInfo, index, if_pos below, Serve.bytes, delivery]
  rw [served complete, served completeAgain, run_append]
  rcases run_cases calls with collecting | settled
  · have prepared := setSize_true_length collecting (ne_nil_of_accepts accepts) small
    exact settles_of_two_rounds accepts (collecting.setSize _) prepared.1 complete completeAgain
  · rw [run_of_hasInfo settled.hasInfo]
    exact settled.hasInfo

/-! ### A wrong piece that is still marked -/

theorem onData_of_missing (collects : exchange.hasInfo = false) (piece : UInt32) (data : List UInt8)
    (expected : piece.toNat < exchange.completed.length)
    (fits : data.length = pieceSize exchange.bytes.length piece) {j : Nat}
    (cleared : (exchange.completed.set piece.toNat true)[j]? = some false) :
    (exchange.onData digests piece data).2 = exchange.savePiece piece data := by
  have missing : (exchange.savePiece piece data).haveAllPieces = false :=
    haveAllPieces_of_cleared collects cleared
  rw [onData, if_neg (ne_true_of_eq_false collects),
    if_neg (Nat.not_le.mpr expected), if_neg (fun differs => differs fits), finishData,
    if_pos missing]

theorem onData_of_refused (collects : exchange.hasInfo = false) (piece : UInt32) (data : List UInt8)
    (expected : piece.toNat < exchange.completed.length)
    (fits : data.length = pieceSize exchange.bytes.length piece)
    (all : (exchange.savePiece piece data).haveAllPieces = true)
    (refused : ¬Accepts digests exchange.expectedV1 exchange.expectedV2
      (exchange.savePiece piece data).bytes) :
    (exchange.onData digests piece data).2 = (exchange.savePiece piece data).invalidate := by
  rw [onData, if_neg (ne_true_of_eq_false collects),
    if_neg (Nat.not_le.mpr expected), if_neg (fun differs => differs fits)]
  rcases finishData_cases digests (exchange.savePiece piece data) with
    ⟨missing, _⟩ | ⟨info, parsed, hashes, _⟩ | ⟨_, _, failed⟩
  · rw [all] at missing
    cases missing
  · exact absurd ⟨info, parsed, hashes⟩ refused
  · exact failed

theorem not_accepts_of_zero {bytes : List UInt8} (zero : bytes[0]? = some 0) :
    ¬Accepts digests expectedV1 expectedV2 bytes := by
  rintro ⟨info, parsed, _⟩
  cases bytes with
  | nil => cases zero
  | cons first =>
    have same : first = 0 := Option.some.inj zero
    rw [same] at parsed
    cases parsed

def hashesOnly (hashes : List UInt8) : List UInt8 :=
  encode (.dict [(ascii "pieces", .bytes hashes)])

theorem length_hashesOnly (hashes : List UInt8) :
    (hashesOnly hashes).length = 11 + (decimal hashes.length).length + hashes.length := by
  have name : (encodeBytes (ascii "pieces")).length = 8 := by decide
  simp only [hashesOnly, encode, encode.encodeEntries, encodeBytes, length_cons,
    length_append, length_nil] at name ⊢
  omega

theorem parseInfo_hashesOnly {hashes : List UInt8} (whole : hashes.length % 20 = 0)
    (fits : Fits (hashesOnly hashes)) :
    Exists fun info : Meta.Info => parseInfo (hashesOnly hashes) = .ok info := by
  have decoded : decode (hashesOnly hashes) =
      .ok (.dict [(ascii "pieces", .bytes hashes)]) := decode_encode _ fits
  have extracted : extractDictKeyRaw (hashesOnly hashes) (ascii "file tree") = .ok none :=
    extractDictKeyRaw_encode _ _ fits
  unfold parseInfo
  rw [decoded]
  dsimp only [Value.asDict]
  have length : intAt [(ascii "pieces", Value.bytes hashes)] "piece length" = 0 := rfl
  rw [length, if_neg (by decide), if_neg (fun differs => differs whole), extracted]
  exact ⟨_, rfl⟩

/-- An info dictionary of two pieces: a thousand piece hashes of zeros. -/
def thousandHashes : List UInt8 :=
  hashesOnly (List.replicate 20000 0)

/-- The digests of `thousandHashes`. -/
def thousandHashesDigests : Digests where
  infoHashV1 := fun _ => #v[42, 74, 247, 186, 21, 2, 120, 15, 137, 55, 65, 141, 131, 162, 132, 175,
    120, 237, 93, 116]
  infoHashV2 := fun _ => #v[210, 138, 134, 244, 9, 35, 198, 108, 221, 175, 219, 155, 149, 231, 238,
    124, 88, 131, 115, 246, 215, 214, 8, 39, 158, 205, 231, 148, 91, 45, 196, 223]

theorem length_thousandHashes : thousandHashes.length = 20016 := by
  have digits : (decimal 20000).length = 5 := by decide
  rw [thousandHashes, length_hashesOnly, length_replicate, digits]

theorem accepts_thousandHashes (hash : InfoHash) (same : thousandHashesDigests.infoHashV1 [] = hash) :
    Accepts thousandHashesDigests (some hash) none thousandHashes := by
  have fits : Fits thousandHashes := by
    rw [Fits, length_thousandHashes]
    decide
  rcases parseInfo_hashesOnly (by rw [length_replicate]) fits with ⟨info, parsed⟩
  exact ⟨info, parsed, Or.inl same⟩

/-- The exchange after the right size and a wrong first piece. -/
def tainted : MetadataExchange :=
  (new (some (thousandHashesDigests.infoHashV1 [])) none).run thousandHashesDigests
    [.setSize 20016, .onData 0 (List.replicate 16384 0)]

theorem tainted_eq : tainted = {
      expectedV1 := some (thousandHashesDigests.infoHashV1 [])
      expectedV2 := none
      bytes := overwrite 0 (List.replicate 16384 0) (List.replicate 20016 0)
      completed := [true, false]
      verified := none } := by
  have sized : (setSize (new (some (thousandHashesDigests.infoHashV1 [])) none) 20016).2 = {
      expectedV1 := some (thousandHashesDigests.infoHashV1 [])
      expectedV2 := none
      bytes := List.replicate 20016 0
      completed := [false, false]
      verified := none } := by
    rfl
  rw [tainted, run, foldl_cons, foldl_cons, apply, sized, apply]
  rw [onData_of_missing rfl 0 _ (by decide) (j := 1) _ rfl]
  · rfl
  · rw [length_replicate, length_replicate]
    decide

theorem pieces_thousandHashes {order : List Nat} (all : order.Perm [0, 1]) :
    order.Perm (List.range (chunkCount metadataPieceSize thousandHashes.length)) := by
  rw [length_thousandHashes]
  exact all

/-- Two rounds of the right pieces settle the exchange after the wrong one. -/
theorem metadata_of_thousandHashes :
    let settled := tainted.run thousandHashesDigests (.setSize thousandHashes.length.toUInt32 ::
      ([1, 0].map (delivery thousandHashes) ++ [0, 1].map (delivery thousandHashes)))
    settled.hasInfo = true ∧ forall verified, settled.verified = some verified ->
      settled.infoBytes = some verified.infoBytes ∧
      HashesMatch thousandHashesDigests (some (thousandHashesDigests.infoHashV1 [])) none
        verified.infoBytes verified.info ∧
      forall later, settled.run thousandHashesDigests later = settled := by
  have collected := (metadata_verified_and_reached thousandHashesDigests _ none _ tainted rfl).2
    (by rw [tainted_eq]) thousandHashes (accepts_thousandHashes _ rfl)
    (by rw [length_thousandHashes]; decide) [1, 0] (pieces_thousandHashes (by decide))
  refine ⟨collected.2 [0, 1] (pieces_thousandHashes (by decide)), fun verified known => ?_⟩
  have settled := (metadata_verified_and_reached thousandHashesDigests _ none _ _
    (run_append ..).symm).1 verified known
  exact ⟨settled.1, settled.2.2.1, settled.2.2.2.1⟩

/-- The same with a peer that has the info. -/
theorem settled_by_peer_thousandHashes : Exists fun source : MetadataExchange => source.pieceCount = 2 ∧
    (tainted.run thousandHashesDigests (.setSize thousandHashes.length.toUInt32 ::
      ([1, 0].map source.servedBy ++ [0, 1].map source.servedBy))).hasInfo = true := by
  rcases fromInfoBytes_of_accepts (accepts_thousandHashes _ rfl) with ⟨source, known, bytes⟩
  have count : source.pieceCount = 2 := by
    rw [pieceCount, bytes, length_thousandHashes]
    rfl
  refine ⟨source, count, ?_⟩
  rw [tainted, <- run_append]
  exact settled_by_peer known (by rw [length_thousandHashes]; decide) _
    (by rw [count]; decide) (by rw [count]; decide)

/-- A buffer of two pieces with a wrong first piece that is marked.  The second
piece completes it and clears both marks, so the first piece is followed by a
wait for the second. -/
theorem not_hasInfo_of_wrong_first (collects : exchange.hasInfo = false)
    (flags : exchange.completed = [true, false]) (length : exchange.bytes.length = 20016)
    (zero : exchange.bytes[0]? = some 0) : (exchange.run digests (.setSize (20016 : Nat).toUInt32 ::
      [1, 0].map (delivery thousandHashes))).hasInfo = false := by
  have notYet : ¬exchange.hasInfo = true := by
    rw [collects]
    exact Bool.noConfusion
  let data := chunk metadataPieceSize 1 thousandHashes
  have second : data.length = 3632 := by
    rw [length_chunk, length_thousandHashes]
    rfl
  have first : (chunk metadataPieceSize 0 thousandHashes).length = 16384 := by
    rw [length_chunk, length_thousandHashes]
    rfl
  have sized : exchange.apply digests (.setSize (20016 : Nat).toUInt32) = exchange := by
    have size : (20016 : Nat).toUInt32.toNat = 20016 := by decide
    unfold apply setSize
    dsimp only
    rw [if_neg notYet, if_neg (by decide), if_neg (by decide), size, if_pos length]
  have marks : (exchange.savePiece 1 data).completed = [true, true] := by
    unfold savePiece
    rw [flags]
    rfl
  have refused : exchange.apply digests (delivery thousandHashes 1) =
      (exchange.savePiece 1 data).invalidate := by
    refine onData_of_refused collects 1 _ (by rw [flags]; decide) ?_ ?_ ?_
    · rw [second, length]
      decide
    · have still : ¬(exchange.savePiece 1 data).hasInfo = true := notYet
      rw [haveAllPieces, if_neg still, marks]
      rfl
    · apply not_accepts_of_zero
      unfold savePiece
      rw [getElem?_overwrite (by rw [length, second]; decide),
        if_neg (fun inside => absurd inside.1 (by decide))]
      exact zero
  have cleared : (exchange.savePiece 1 data).invalidate.completed = [false, false] := by
    unfold invalidate
    rw [marks]
    rfl
  have kept : (exchange.savePiece 1 data).invalidate.bytes.length = 20016 := by
    unfold invalidate savePiece
    rw [length_overwrite (by rw [length, second]; decide), length]
  have missing : (exchange.savePiece 1 data).invalidate.apply digests (delivery thousandHashes 0) =
      (exchange.savePiece 1 data).invalidate.savePiece 0 (chunk metadataPieceSize 0 thousandHashes) := by
    refine onData_of_missing rfl 0 _ (by rw [cleared]; decide) (j := 1) ?_ (by rw [cleared]; rfl)
    rw [first, kept]
    decide
  rw [map_cons, map_cons, run, foldl_cons, foldl_cons, foldl_cons, sized, refused, missing]
  rfl

/-- The right size and the right pieces, the second one first, do not settle an
exchange in which a wrong first piece is marked. -/
theorem not_reached_after_wrong_piece : tainted.verified = none ∧
      Accepts thousandHashesDigests (some (thousandHashesDigests.infoHashV1 [])) none
        thousandHashes ∧ thousandHashes.length <= maxMetadataSize.toNat ∧
      [1, 0].Perm (List.range (chunkCount metadataPieceSize thousandHashes.length)) ∧
      (tainted.run thousandHashesDigests (.setSize thousandHashes.length.toUInt32 ::
        [1, 0].map (delivery thousandHashes))).hasInfo = false := by
  rw [length_thousandHashes]
  refine ⟨by rw [tainted_eq], accepts_thousandHashes _ rfl, by decide, by decide, ?_⟩
  have inside : 0 + (List.replicate 16384 (0 : UInt8)).length <=
      (List.replicate 20016 (0 : UInt8)).length := by
    rw [length_replicate, length_replicate]
    decide
  apply not_hasInfo_of_wrong_first
  · rw [tainted_eq]
    rfl
  · rw [tainted_eq]
  · rw [tainted_eq]
    rw [length_overwrite inside, length_replicate]
  · rw [tainted_eq]
    rw [getElem?_overwrite inside, if_pos (by rw [length_replicate]; decide),
      getElem?_replicate, if_pos (by decide)]

end MetadataExchange
end TorrentPlayer.Core
