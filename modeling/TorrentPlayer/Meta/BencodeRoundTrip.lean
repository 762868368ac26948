import TorrentPlayer.Meta.BencodeReaders

namespace TorrentPlayer.Meta

open Library List

/-!
# Reading back what was written

The descent of the decoder accepts exactly the texts that the encoder writes.  A value
as the input has it (`transcribe`) is therefore determined by the bytes, and the decoder
returns that value with each dictionary put in order.
-/

/-! ## Values -/

/-- The value that the decoder builds from a value as the input has it: its dictionaries
collect their entries one after the other. -/
def Value.collected (collect : Decoder.Collect) : Value -> Value
  | .int number => .int number
  | .bytes text => .bytes text
  | .list items => .list (collectedItems items)
  | .dict entries => .dict (collectedEntries [] entries)
where
  collectedItems : List Value -> List Value
    | [] => []
    | item :: items => item.collected collect :: collectedItems items
  collectedEntries : List (List UInt8 × Value) -> List (List UInt8 × Value) -> List (List UInt8 × Value)
    | before, [] => before
    | before, (key, value) :: entries =>
      collectedEntries (collect before key (value.collected collect)) entries

open Value.collected encode

variable {value : Value} {entries : List (List UInt8 × Value)} {data : List UInt8}

namespace Decoder

/-- What a fuel of the descent has to satisfy: each reader reads a written value. -/
structure Sound (collect : Collect) (fuel : Nat) : Prop where
  value : ∀ {decoder after : Decoder} {value : Value},
    parseValue collect fuel decoder = .ok (value, after) ->
    Exists fun raw => value = raw.collected collect /\ Reads decoder (encode raw) after
  list : ∀ {decoder after : Decoder} {items : List Value} {value : Value},
    parseList collect fuel decoder items = .ok (value, after) ->
    Exists fun raw => value = .list (items ++ collectedItems collect raw) /\
      Reads decoder (encodeItems raw ++ ['e'.toUInt8]) after
  dict : ∀ {decoder after : Decoder} {entries : List (List UInt8 × Value)} {value : Value},
    parseDict collect fuel decoder entries = .ok (value, after) ->
    Exists fun raw => value = .dict (collectedEntries collect entries raw) /\
      Reads decoder (encodeEntries raw ++ ['e'.toUInt8]) after

variable {fuel : Nat} {decoder after : Decoder} {text : List UInt8}
variable {byte : UInt8} {collect : Collect}

theorem Sound.parseValue_succ (sound : Sound collect fuel)
    (read : parseValue collect (fuel + 1) decoder = .ok (value, after)) :
    Exists fun raw => value = raw.collected collect /\ Reads decoder (encode raw) after := by
  rw [parseValue] at read
  split at read
  · cases read
  rename_i byte rest front
  split at read
  · rcases parseInt_eq_ok read with ⟨number, shape, reads⟩
    exact ⟨.int number, shape, reads⟩
  split at read
  next marker =>
    rcases sound.list read with ⟨raw, shape, reads⟩
    refine ⟨.list raw, shape, ?_⟩
    rw [marker] at front
    exact (Reads.cons front).trans reads
  · split at read
    next marker =>
      rcases sound.dict read with ⟨raw, shape, reads⟩
      refine ⟨.dict raw, shape, ?_⟩
      rw [marker] at front
      exact (Reads.cons front).trans reads
    · rcases else_error_eq_ok.mp read with ⟨_, read⟩
      split at read
      · cases read
      rename_i text middle parsed
      cases read
      refine ⟨.bytes text, rfl, ?_⟩
      exact parseBytes_eq_ok parsed

theorem Sound.parseList_succ (sound : Sound collect fuel) {items : List Value}
    (read : parseList collect (fuel + 1) decoder items = .ok (value, after)) :
    Exists fun raw => value = .list (items ++ collectedItems collect raw) /\
    Reads decoder (encodeItems raw ++ ['e'.toUInt8]) after := by
  rw [parseList] at read
  split at read
  · cases read
  rename_i byte rest front
  split at read
  next ending =>
    cases read
    rw [ending] at front
    refine ⟨[], ?_, Reads.cons front⟩
    rw [collectedItems, append_nil]
  · split at read
    · cases read
    rename_i item middle parsed
    rcases sound.value parsed with ⟨raw, shape, reads⟩
    rcases sound.list read with ⟨later, whole, ahead⟩
    refine ⟨raw :: later, ?_, ?_⟩
    · rw [whole, collectedItems, shape, append_assoc, singleton_append]
    · rw [encodeItems, append_assoc]
      exact reads.trans ahead

theorem Sound.parseDict_succ (sound : Sound collect fuel)
    (read : parseDict collect (fuel + 1) decoder entries = .ok (value, after)) :
    Exists fun raw => value = .dict (collectedEntries collect entries raw) /\
    Reads decoder (encodeEntries raw ++ ['e'.toUInt8]) after := by
  rw [parseDict] at read
  split at read
  · cases read
  rename_i byte rest front
  split at read
  next ending =>
    cases read
    rw [ending] at front
    refine ⟨[], ?_, Reads.cons front⟩
    rw [collectedEntries]
  · split at read
    · cases read
    rename_i key middle named
    split at read
    · cases read
    rename_i held next parsed
    have name := parseBytes_eq_ok named
    rcases sound.value parsed with ⟨raw, shape, reads⟩
    rcases sound.dict read with ⟨later, whole, ahead⟩
    refine ⟨(key, raw) :: later, ?_, ?_⟩
    · rw [whole, collectedEntries, shape]
    · rw [encodeEntries, append_assoc, append_assoc]
      exact name.trans (reads.trans ahead)

/-- What the descent accepts is a written value, for any fuel. -/
theorem sound (collect : Collect) (fuel : Nat) : Sound collect fuel := by
  induction fuel with
  | zero => exact ⟨nofun, nofun, nofun⟩
  | succ fuel ih => exact ⟨ih.parseValue_succ, ih.parseList_succ, ih.parseDict_succ⟩

theorem encodeBytes_eq_cons (text : List UInt8) :
    Exists fun byte => Exists fun rest => encodeBytes text = byte :: rest /\ isDigit byte = true := by
  have numeral := isNumeral_decimal text.length
  cases spelled : decimal text.length with
  | nil => exact absurd spelled numeral.nonempty
  | cons byte digits =>
    refine ⟨byte, digits ++ ':'.toUInt8 :: text, ?_, numeral.digit byte (by simp [spelled])⟩
    rw [encodeBytes, spelled, cons_append]

theorem encode_eq_cons (raw : Value) :
    Exists fun byte => Exists fun rest => encode raw = byte :: rest /\ byte ≠ 'e'.toUInt8 := by
  cases raw with
  | int | list | dict => exact ⟨_, _, by rw [encode], by decide⟩
  | bytes text =>
    rcases encodeBytes_eq_cons text with ⟨byte, rest, shape, digit⟩
    refine ⟨byte, rest, by rw [encode, shape], ?_⟩
    intro ending
    rw [ending] at digit
    exact absurd digit (by decide)

theorem Reads.front (reads : Reads decoder (byte :: text) after) :
    decoder.rest = byte :: (text ++ after.rest) := by
  rw [reads.rest, cons_append]

theorem Reads.tail (reads : Reads decoder (byte :: text) after) :
    Reads ⟨decoder.pos + 1, text ++ after.rest⟩ text after := by
  refine ⟨rfl, ?_⟩
  rw [reads.pos, length_cons]
  dsimp only
  omega

theorem Reads.split {later : List UInt8} (reads : Reads decoder (text ++ later) after) :
    Exists fun middle => Reads decoder text middle /\ Reads middle later after := by
  refine ⟨⟨decoder.pos + text.length, later ++ after.rest⟩, ⟨?_, rfl⟩, ⟨rfl, ?_⟩⟩
  · rw [reads.rest, append_assoc]
  · rw [reads.pos, length_append, Nat.add_assoc]

section
variable (collect : Collect)

mutual

/-- A written value is read back, with its entries collected, from fuel that covers it. -/
theorem parseValue_encode : ∀ (raw : Value) {fuel : Nat} {decoder after : Decoder},
    Reads decoder (encode raw) after -> decoder.pos + decoder.rest.length < usizeBound ->
    2 * (encode raw).length < fuel ->
    parseValue collect fuel decoder = .ok (raw.collected collect, after)
  | _, 0, _, _, _, _, enough => absurd enough (Nat.not_lt_zero _)
  | .int number, fuel + 1, decoder, after, reads, _, _ => by
      have front := reads
      rw [parseValue, front.front]
      exact parseInt_encode reads
  | .bytes text, fuel + 1, decoder, after, reads, fits, _ => by
      rw [encode] at reads
      rcases encodeBytes_eq_cons text with ⟨byte, _, shape, digit⟩
      have front := reads
      rw [shape] at front
      have different : ∀ other, isDigit other = false -> byte ≠ other := by
        intro other notDigit same
        rw [same, notDigit] at digit
        exact absurd digit (by decide)
      rw [parseValue, front.front]
      dsimp only
      rw [if_neg (different _ (by decide)), if_neg (different _ (by decide)),
        if_neg (different _ (by decide)), if_pos digit, parseBytes_encode reads fits]
      rfl
  | .list raw, fuel + 1, decoder, after, reads, fits, enough => by
      rw [encode] at reads enough
      rw [parseValue, reads.front]
      have total := reads.total
      have total' := reads.tail.total
      apply parseList_encode raw reads.tail (by omega)
      simp only [length_cons, length_append, length_nil] at enough
      omega
  | .dict raw, fuel + 1, decoder, after, reads, fits, enough => by
      rw [encode] at reads enough
      rw [parseValue, reads.front]
      have total := reads.total
      have total' := reads.tail.total
      apply parseDict_encode raw reads.tail (by omega)
      simp only [length_cons, length_append, length_nil] at enough
      omega

theorem parseList_encode : ∀ (raw : List Value) {fuel : Nat} {decoder after : Decoder}
    {items : List Value}, Reads decoder (encodeItems raw ++ ['e'.toUInt8]) after ->
    decoder.pos + decoder.rest.length < usizeBound -> 2 * (encodeItems raw).length + 1 < fuel ->
    parseList collect fuel decoder items = .ok (.list (items ++ collectedItems collect raw), after)
  | _, 0, _, _, _, _, _, enough => absurd enough (Nat.not_lt_zero _)
  | [], fuel + 1, decoder, after, items, reads, _, _ => by
      have done := (Reads.cons reads.front).unique reads
      rw [parseList, reads.front]
      dsimp only
      rw [if_pos rfl, done, collectedItems, append_nil]
  | item :: raw, fuel + 1, decoder, after, items, reads, fits, enough => by
      rw [encodeItems, append_assoc] at reads
      rw [encodeItems, length_append] at enough
      rcases reads.split with ⟨middle, first, later⟩
      rcases encode_eq_cons item with ⟨_, _, shape, notEnd⟩
      have front := first
      rw [shape] at front
      have long : 0 < (encode item).length := by
        rw [shape]
        simp
      have total := first.total
      have parsed : parseValue collect fuel decoder = _ :=
        parseValue_encode item first fits (by omega)
      have read : parseList collect fuel middle (items ++ [item.collected collect]) = _ :=
        parseList_encode raw later (by omega) (by omega)
      rw [parseList, front.front]
      dsimp only
      rw [if_neg notEnd, parsed, collectedItems]
      dsimp only
      rw [read, append_assoc, singleton_append]

theorem parseDict_encode : ∀ (raw : List (List UInt8 × Value)) {fuel : Nat}
    {decoder after : Decoder} {entries : List (List UInt8 × Value)},
    Reads decoder (encodeEntries raw ++ ['e'.toUInt8]) after ->
    decoder.pos + decoder.rest.length < usizeBound -> 2 * (encodeEntries raw).length + 1 < fuel ->
    parseDict collect fuel decoder entries = .ok (.dict (collectedEntries collect entries raw), after)
  | _, 0, _, _, _, _, _, enough => absurd enough (Nat.not_lt_zero _)
  | [], fuel + 1, decoder, after, entries, reads, _, _ => by
      have done := (Reads.cons reads.front).unique reads
      rw [parseDict, reads.front]
      dsimp only
      rw [if_pos rfl, done, collectedEntries]
  | (key, value) :: raw, fuel + 1, decoder, after, entries, reads, fits, enough => by
      rw [encodeEntries, append_assoc, append_assoc] at reads
      rw [encodeEntries, length_append, length_append] at enough
      rcases reads.split with ⟨middle, name, later⟩
      rcases later.split with ⟨next, first, later⟩
      rcases encodeBytes_eq_cons key with ⟨byte, _, shape, digit⟩
      have front := name
      rw [shape] at front
      have long : 0 < (encodeBytes key).length := by
        rw [shape]
        simp
      have notEnd : byte ≠ 'e'.toUInt8 := by
        intro ending
        rw [ending] at digit
        exact absurd digit (by decide)
      have total := name.total
      have total' := first.total
      have named := parseBytes_encode name fits
      have parsed : parseValue collect fuel middle = _ :=
        parseValue_encode value first (by omega) (by omega)
      have read : parseDict collect fuel next (collect entries key (value.collected collect)) = _ :=
        parseDict_encode raw later (by omega) (by omega)
      rw [parseDict, front.front]
      dsimp only
      rw [if_neg notEnd, named]
      dsimp only
      rw [parsed]
      dsimp only
      rw [read, collectedEntries]

end
end

theorem length_rest_lt (read : parseValue collect fuel decoder = .ok (value, after)) :
    after.rest.length < decoder.rest.length := by
  rcases (sound collect fuel).value read with ⟨raw, -, reads⟩
  rcases encode_eq_cons raw with ⟨_, _, shape, -⟩
  rw [reads.rest, shape, length_append, length_cons]
  omega

theorem length_rest_le_of_parseBytes (read : parseBytes decoder = .ok (text, after)) :
    after.rest.length <= decoder.rest.length := by
  rw [(parseBytes_eq_ok read).rest, length_append]
  omega

/-- From this fuel on, more of it changes no result. -/
structure Steady (collect : Collect) (fuel : Nat) : Prop where
  value : ∀ {decoder : Decoder}, 2 * decoder.rest.length < fuel ->
    parseValue collect (fuel + 1) decoder = parseValue collect fuel decoder
  list : ∀ {decoder : Decoder} {items : List Value}, 2 * decoder.rest.length + 1 < fuel ->
    parseList collect (fuel + 1) decoder items = parseList collect fuel decoder items
  dict : ∀ {decoder : Decoder} {entries : List (List UInt8 × Value)}, 2 * decoder.rest.length + 1 < fuel ->
    parseDict collect (fuel + 1) decoder entries = parseDict collect fuel decoder entries

section
variable (steady : Steady collect fuel)
include steady

theorem Steady.parseValue_succ (enough : 2 * decoder.rest.length < fuel + 1) :
    parseValue collect (fuel + 2) decoder = parseValue collect (fuel + 1) decoder := by
  rw [parseValue, parseValue]
  cases front : decoder.rest with
  | nil => rfl
  | cons =>
    rw [front, length_cons] at enough
    dsimp only
    rw [steady.list (by dsimp only; omega), steady.dict (by dsimp only; omega)]

theorem Steady.parseList_succ {items : List Value} (enough : 2 * decoder.rest.length + 1 < fuel + 1) :
    parseList collect (fuel + 2) decoder items = parseList collect (fuel + 1) decoder items := by
  rw [parseList, parseList, steady.value (by omega)]
  cases parsed : parseValue collect fuel decoder with
  | error => rfl
  | ok result =>
    rcases result with ⟨_, _⟩
    have shorter := length_rest_lt parsed
    dsimp only
    rw [steady.list (by omega)]

theorem Steady.parseDict_succ (enough : 2 * decoder.rest.length + 1 < fuel + 1) :
    parseDict collect (fuel + 2) decoder entries = parseDict collect (fuel + 1) decoder entries := by
  rw [parseDict, parseDict]
  cases named : parseBytes decoder with
  | error => rfl
  | ok result =>
    rcases result with ⟨_, middle⟩
    have notLonger := length_rest_le_of_parseBytes named
    dsimp only
    rw [steady.value (by omega)]
    cases parsed : parseValue collect fuel middle with
    | error => rfl
    | ok result =>
      rcases result with ⟨_, _⟩
      have shorter := length_rest_lt parsed
      dsimp only
      rw [steady.dict (by omega)]

end

theorem steady (collect : Collect) (fuel : Nat) : Steady collect fuel := by
  induction fuel with
  | zero =>
    refine ⟨?_, ?_, ?_⟩
    · intro _ enough
      exact absurd enough (Nat.not_lt_zero _)
    · intro _ _ enough
      exact absurd enough (Nat.not_lt_zero _)
    · intro _ _ enough
      exact absurd enough (Nat.not_lt_zero _)
  | succ fuel ih => exact ⟨ih.parseValue_succ, ih.parseList_succ, ih.parseDict_succ⟩

/-- The fuel of `readValue` is enough: the recursion of the source, which has no bound,
returns the same. -/
theorem parseValue_fuel (collect : Collect) (data : List UInt8) (more : Nat) :
    parseValue collect (2 * data.length + 1 + more) ⟨0, data⟩ =
    parseValue collect (2 * data.length + 1) ⟨0, data⟩ := by
  induction more with
  | zero => rfl
  | succ more ih => rw [<- Nat.add_assoc, (steady collect _).value (by dsimp only; omega), ih]

end Decoder

abbrev appendEntry : Decoder.Collect :=
  fun entries key value => entries ++ [(key, value)]

mutual

theorem collected_append : ∀ raw : Value, raw.collected appendEntry = raw
  | .int _ | .bytes _ => rfl
  | .list items => by rw [Value.collected, collectedItems_append items]
  | .dict entries => by rw [Value.collected, collectedEntries_append entries, nil_append]

theorem collectedItems_append : ∀ raw : List Value, collectedItems appendEntry raw = raw
  | [] => rfl
  | item :: raw => by rw [collectedItems, collected_append item, collectedItems_append raw]

theorem collectedEntries_append : ∀ (raw : List (List UInt8 × Value))
    {before : List (List UInt8 × Value)}, collectedEntries appendEntry before raw = before ++ raw
  | [], before => by rw [collectedEntries, append_nil]
  | (key, value) :: raw, before => by
      rw [collectedEntries, collected_append value, collectedEntries_append raw, append_assoc,
        singleton_append]

end

theorem collectedEntries_insert (raw before : List (List UInt8 × Value)) :
    collectedEntries insertEntry before raw =
    insertAll before (raw.map (fun entry => (entry.1, entry.2.collected insertEntry))) := by
  induction raw generalizing before with
  | nil => rfl
  | cons entry raw ih => exact ih _

open Value.Ordered in
theorem orderedEntries_iff (entries : List (List UInt8 × Value)) :
    OrderedEntries entries <-> ∀ entry ∈ entries, entry.2.Ordered := by
  induction entries with
  | nil => simp [OrderedEntries]
  | cons entry entries ih => simp [OrderedEntries, ih]

open Value.Ordered in
theorem orderedEntries_insertEntry (ordered : OrderedEntries entries) (key : List UInt8)
    (own : value.Ordered) : OrderedEntries (insertEntry entries key value) := by
  rw [orderedEntries_iff] at ordered ⊢
  intro entry member
  rcases mem_insertEntry member with new | old
  · rw [new]
    exact own
  · exact ordered entry old

open Value.Ordered in
mutual

/-- Whatever order the input has, the decoder returns ordered maps. -/
theorem ordered_collected : ∀ raw : Value, (raw.collected insertEntry).Ordered
  | .int _ | .bytes _ => trivial
  | .list items => orderedItems_collected items
  | .dict entries => by
      refine ⟨?_, orderedEntries_collected entries trivial⟩
      rw [collectedEntries_insert]
      exact keysIncreasing_insertAll List.Pairwise.nil _

theorem orderedItems_collected : ∀ raw : List Value, OrderedItems (collectedItems insertEntry raw)
  | [] => trivial
  | item :: raw => ⟨ordered_collected item, orderedItems_collected raw⟩

theorem orderedEntries_collected : ∀ (raw : List (List UInt8 × Value))
    {before : List (List UInt8 × Value)}, OrderedEntries before ->
    OrderedEntries (collectedEntries insertEntry before raw)
  | [], _, ordered => ordered
  | (key, value) :: raw, _, ordered =>
    orderedEntries_collected raw (orderedEntries_insertEntry ordered key (ordered_collected value))

end

open Value.Ordered in
mutual

theorem collected_of_ordered : ∀ {value : Value}, value.Ordered -> value.collected insertEntry = value
  | .int _, _ | .bytes _, _ => rfl
  | .list items, ordered => by rw [Value.collected, collectedItems_of_ordered ordered]
  | .dict entries, ordered => by
      rw [Value.collected, collectedEntries_insert, map_collected_of_ordered ordered.2,
        insertAll_nil ordered.1]

theorem collectedItems_of_ordered : ∀ {items : List Value}, OrderedItems items ->
    collectedItems insertEntry items = items
  | [], _ => rfl
  | item :: items, ordered => by
      rw [collectedItems, collected_of_ordered ordered.1, collectedItems_of_ordered ordered.2]

theorem map_collected_of_ordered : ∀ {entries : List (List UInt8 × Value)}, OrderedEntries entries ->
    entries.map (fun entry => (entry.1, entry.2.collected insertEntry)) = entries
  | [], _ => rfl
  | (key, value) :: entries, ordered => by
      rw [map_cons, collected_of_ordered ordered.1, map_collected_of_ordered ordered.2]

end

/-! ## Whole inputs -/

/-- No slice of the program is longer than a `usize` counts. -/
def Fits (data : List UInt8) : Prop :=
  data.length < Decoder.usizeBound

theorem readValue_encode (collect : Decoder.Collect) (raw : Value) {rest : List UInt8}
    (fits : Fits (encode raw ++ rest)) : readValue collect (encode raw ++ rest) =
    .ok (raw.collected collect, (encode raw).length) := by
  have reads : Decoder.Reads ⟨0, encode raw ++ rest⟩ (encode raw) ⟨(encode raw).length, rest⟩ :=
    ⟨rfl, (Nat.zero_add _).symm⟩
  have fits' : 0 + (encode raw ++ rest).length < Decoder.usizeBound := by
    rw [Nat.zero_add]
    exact fits
  have read := Decoder.parseValue_encode collect raw reads fits'
    (show _ < 2 * (encode raw ++ rest).length + 1 by rw [length_append]; omega)
  rw [readValue, read]

theorem readValue_eq_ok {collect : Decoder.Collect} {consumed : Nat}
    (read : readValue collect data = .ok (value, consumed)) : Exists fun raw => Exists fun rest => data =
    encode raw ++ rest /\ value = raw.collected collect /\ consumed = (encode raw).length := by
  rw [readValue] at read
  split at read
  · cases read
  rename_i after parsed
  cases read
  rcases (Decoder.sound collect _).value parsed with ⟨raw, shape, reads⟩
  exact ⟨raw, _, reads.rest, shape, reads.pos.trans (Nat.zero_add _)⟩

/-- The decoder accepts the text of every value, in order or not, and puts it in order. -/
theorem decode_encode (raw : Value) (fits : Fits (encode raw)) :
    decode (encode raw) = .ok (raw.collected insertEntry) := by
  have read : readValue insertEntry (encode raw ++ []) = _ :=
    readValue_encode insertEntry raw (by rw [append_nil]; exact fits)
  rw [append_nil] at read
  rw [decode, decodePrefix, read]
  dsimp only
  rw [if_pos rfl]

theorem decode_eq_ok (read : decode data = .ok value) :
    Exists fun raw => data = encode raw /\ value = raw.collected insertEntry := by
  rw [decode] at read
  split at read
  · cases read
  rename_i found consumed parsed
  rcases else_error_eq_ok.mp read with ⟨whole, ⟨⟩⟩
  rcases readValue_eq_ok parsed with ⟨raw, rest, shape, collected, _⟩
  refine ⟨raw, ?_, collected⟩
  have none : rest = [] := by
    rw [shape, length_append] at whole
    exact eq_nil_of_length_eq_zero (by omega)
  rw [shape, none, append_nil]

theorem transcribe_encode (raw : Value) (fits : Fits (encode raw)) : transcribe (encode raw) = .ok raw := by
  have read : readValue appendEntry (encode raw ++ []) = _ :=
    readValue_encode appendEntry raw (by rw [append_nil]; exact fits)
  rw [append_nil, collected_append] at read
  rw [transcribe, read]

theorem transcribe_of_decode (fits : Fits data) (read : decode data = .ok value) :
    Exists fun raw => transcribe data = .ok raw /\ data = encode raw /\
    value = raw.collected insertEntry := by
  rcases decode_eq_ok read with ⟨raw, shape, collected⟩
  rw [shape] at fits
  refine ⟨raw, ?_, shape, collected⟩
  rw [shape]
  exact transcribe_encode raw fits

/-- In every dictionary of the input the keys are strictly increasing. -/
def DictionariesIncreasing (data : List UInt8) : Prop :=
  Exists fun raw => transcribe data = .ok raw /\ raw.Ordered

theorem encode_eq_iff_dictionariesIncreasing (fits : Fits data) (read : decode data = .ok value) :
    encode value = data <-> DictionariesIncreasing data := by
  rcases transcribe_of_decode fits read with ⟨raw, written, shape, collected⟩
  have ordered : value.Ordered := by
    rw [collected]
    exact ordered_collected raw
  constructor
  · intro same
    rw [<- same] at fits ⊢
    exact ⟨value, transcribe_encode value fits, ordered⟩
  · rintro ⟨other, found, increasing⟩
    rw [written] at found
    cases found
    rw [collected, collected_of_ordered increasing, shape]

/-- Encoding and decoding are inverse to each other: a value in order is read back with
any bytes after it, and an accepted input is written back exactly when the keys of all
its dictionaries increase. -/
theorem bencode_round_trip :
    (∀ (value : Value) (rest : List UInt8), value.Ordered -> Fits (encode value ++ rest) ->
      decode (encode value) = .ok value ∧
        decodePrefix (encode value ++ rest) = .ok (value, (encode value).length)) ∧
      ∀ (data : List UInt8) (value : Value), Fits data -> decode data = .ok value ->
        (encode value = data <-> DictionariesIncreasing data) := by
  refine ⟨?_, ?_⟩
  · intro value rest ordered fits
    have own : Fits (encode value) := by
      rw [Fits, length_append] at fits
      rw [Fits]
      omega
    refine ⟨?_, ?_⟩
    · rw [decode_encode value own, collected_of_ordered ordered]
    · rw [decodePrefix, readValue_encode insertEntry value fits, collected_of_ordered ordered]
  · intro data value fits read
    exact encode_eq_iff_dictionariesIncreasing fits read

/-- `d1:ai1ee`, with a list after it. -/
theorem bencode_round_trip_dictionary : let value := Value.dict [([97], .int (Int64.ofInt 1))]
    let data := [100, 49, 58, 97, 105, 49, 101, 101]
    (decode (encode value) = .ok value ∧
      decodePrefix (encode value ++ [108, 101]) = .ok (value, (encode value).length)) ∧
      (encode value = data <-> DictionariesIncreasing data) := by
  refine ⟨?_, ?_⟩
  · exact bencode_round_trip.1 _ _ ⟨by decide, trivial, trivial⟩ (by unfold Fits; decide)
  · exact bencode_round_trip.2 _ _ (by unfold Fits; decide) rfl

end TorrentPlayer.Meta
