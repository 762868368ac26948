import TorrentPlayer.Meta.BencodeRoundTrip

namespace TorrentPlayer.Meta

open Library Value.collected encode List Option

/-!
# The raw bytes of a dictionary value

`extractDictKeyRaw` walks over the entries of a dictionary and cuts the value of a key
out of the input.  It stops at the first entry of the key, while the ordered map of the
decoder keeps the last one.
-/

/-- The end of the value at a position. -/
def skipValue (decoder : Decoder) : Except Error Decoder :=
  match Decoder.parseValue insertEntry (2 * decoder.rest.length + 1) decoder with
  | .error error => .error error
  | .ok (_, after) => .ok after

/-- The loop over the entries.  Each round consumes input, so that the length of the input
is enough fuel. -/
def extractLoop (key : List UInt8) : Nat -> Decoder -> Except Error (Option (List UInt8))
  | 0, _ => .error .unexpectedEof
  | fuel + 1, decoder =>
    match decoder.rest with
    | [] => .error .unexpectedEof
    | byte :: _ =>
      if byte = 'e'.toUInt8 then
        .ok none
      else
        match decoder.parseBytes with
        | .error error => .error error
        | .ok (name, valueStart) =>
          match skipValue valueStart with
          | .error error => .error error
          | .ok after =>
            if name = key then
              .ok (some (valueStart.rest.take (after.pos - valueStart.pos)))
            else
              extractLoop key fuel after

def extractDictKeyRaw (data key : List UInt8) : Except Error (Option (List UInt8)) :=
  match data with
  | [] => .error .unexpectedEof
  | first :: rest =>
    if first = 'd'.toUInt8 then
      extractLoop key data.length ⟨1, rest⟩
    else
      .error (.bencode 0 "expected dict")

theorem skipValue_encode
    {decoder after : Decoder} {raw : Value} (reads : Decoder.Reads decoder (encode raw) after)
    (fits : decoder.pos + decoder.rest.length < Decoder.usizeBound) : skipValue decoder = .ok after := by
  have enough : 2 * (encode raw).length < 2 * decoder.rest.length + 1 := by
    rw [reads.rest, length_append]
    omega
  rw [skipValue, Decoder.parseValue_encode insertEntry raw reads fits enough]

theorem extractLoop_encode (key : List UInt8) : ∀ (raw : List (List UInt8 × Value))
    {fuel : Nat} {decoder after : Decoder},
    Decoder.Reads decoder (encodeEntries raw ++ ['e'.toUInt8]) after ->
    decoder.pos + decoder.rest.length < Decoder.usizeBound -> (encodeEntries raw).length < fuel ->
    extractLoop key fuel decoder = .ok ((raw.lookup key).map encode)
  | _, 0, _, _, _, _, enough => absurd enough (Nat.not_lt_zero _)
  | [], fuel + 1, decoder, after, reads, _, _ => by
      rw [extractLoop, reads.front]
      rfl
  | (name, value) :: raw, fuel + 1, decoder, after, reads, fits, enough => by
      rw [encodeEntries, append_assoc, append_assoc] at reads
      rw [encodeEntries, length_append, length_append] at enough
      rcases reads.split with ⟨valueStart, named, later⟩
      rcases later.split with ⟨next, held, later⟩
      rcases Decoder.encodeBytes_eq_cons name with ⟨byte, _, shape, digit⟩
      have front := named
      rw [shape] at front
      have notEnd : byte ≠ 'e'.toUInt8 := by
        intro ending
        rw [ending] at digit
        exact absurd digit (by decide)
      have long : 0 < (encodeBytes name).length := by
        rw [shape]
        simp
      have total := named.total
      have total' := held.total
      have cut : valueStart.rest.take (next.pos - valueStart.pos) = encode value := by
        rw [held.rest, held.pos, Nat.add_sub_cancel_left, take_left]
      rw [extractLoop, front.front]
      dsimp only
      rw [if_neg notEnd, Decoder.parseBytes_encode named fits]
      dsimp only
      rw [skipValue_encode held (by omega)]
      dsimp only
      rw [cut, extractLoop_encode key raw later (by omega) (by omega), lookup_cons]
      by_cases same : name = key
      · rw [if_pos same, same, beq_self_eq_true]
        rfl
      · have other : (key == name) = false := by
          rw [beq_eq_false_iff_ne]
          exact fun equal => same equal.symm
        rw [if_neg same, other]

theorem extractDictKeyRaw_encode (raw : List (List UInt8 × Value)) (key : List UInt8)
    (fits : Fits (encode (.dict raw))) :
    extractDictKeyRaw (encode (.dict raw)) key = .ok ((raw.lookup key).map encode) := by
  rw [Fits, encode, length_cons] at fits
  have reads : Decoder.Reads ⟨1, encodeEntries raw ++ ['e'.toUInt8]⟩
      (encodeEntries raw ++ ['e'.toUInt8]) ⟨1 + (encodeEntries raw ++ ['e'.toUInt8]).length, []⟩ :=
    ⟨(append_nil _).symm, rfl⟩
  rw [encode]
  apply extractLoop_encode key raw reads
  · dsimp only
    omega
  · rw [length_cons, length_append]
    omega

/-! ## Comparison with the decoded dictionary -/

theorem lookup_map_value {K V W : Type} [BEq K] (entries : List (K × V)) (change : V -> W)
    (key : K) : (entries.map (fun entry => (entry.1, change entry.2))).lookup key =
    (entries.lookup key).map change := by
  induction entries with
  | nil => rfl
  | cons entry entries ih =>
    rw [map_cons, lookup_cons, lookup_cons, ih]
    cases key == entry.1 with
    | true | false => rfl

variable {data key : List UInt8} {entries : List (List UInt8 × Value)}

theorem transcribe_of_decode_dict (fits : Fits data) (read : decode data = .ok (.dict entries)) :
    Exists fun raw => transcribe data = .ok (.dict raw) /\ data = encode (.dict raw) /\
    ∀ key, entries.lookup key = (raw.reverse.lookup key).map (Value.collected insertEntry) := by
  rcases transcribe_of_decode fits read with ⟨whole, written, shape, collected⟩
  cases whole with
  | int | bytes | list => cases collected
  | dict raw =>
    refine ⟨raw, written, shape, ?_⟩
    intro key
    rw [Value.collected, collectedEntries_insert] at collected
    rw [Value.dict.inj collected, lookup_insertAll, <- map_reverse, lookup_map_value]
    exact or_none

/-- The walk agrees with the decoder about a key: it returns a slice exactly when the
decoded dictionary has the key, and the slice decodes to the value it has there. -/
def ExtractionAgrees (data key : List UInt8) (entries : List (List UInt8 × Value)) : Prop :=
  ((Exists fun slice => extractDictKeyRaw data key = .ok (some slice)) <->
      Exists fun value => entries.lookup key = some value) /\
    ∀ slice, extractDictKeyRaw data key = .ok (some slice) ->
      Exists fun value => entries.lookup key = some value /\ decode slice = .ok value

/-- The first and the last entry of the key in the input decode to the same value. -/
def OccurrencesAgree (data key : List UInt8) : Prop :=
  Exists fun raw => transcribe data = .ok (.dict raw) /\ (raw.lookup key).map (Value.collected insertEntry) =
      (raw.reverse.lookup key).map (Value.collected insertEntry)

theorem extractDictKeyRaw_isSome_iff (fits : Fits data) (read : decode data = .ok (.dict entries)) :
    (Exists fun slice => extractDictKeyRaw data key = .ok (some slice)) <->
    Exists fun value => entries.lookup key = some value := by
  rcases transcribe_of_decode_dict fits read with ⟨raw, -, shape, last⟩
  rw [shape] at fits ⊢
  rw [extractDictKeyRaw_encode raw key fits, last key]
  have both : (raw.lookup key).isSome = (raw.reverse.lookup key).isSome := by
    rw [Bool.eq_iff_iff]
    simp
  cases first : raw.lookup key with
  | none =>
    rw [first] at both
    have absent : raw.reverse.lookup key = none := not_isSome_iff_eq_none.mp (by
      rw [<- both]
      decide)
    rw [absent]
    simp
  | some =>
    rw [first] at both
    rcases isSome_iff_exists.mp both.symm with ⟨_, found⟩
    rw [found]
    simp

theorem length_encode_le_of_lookup {value : Value} :
    ∀ {raw : List (List UInt8 × Value)}, raw.lookup key = some value ->
      (encode value).length <= (encodeEntries raw).length
  | [], found => by cases found
  | (name, held) :: raw, found => by
      rw [encodeEntries, length_append, length_append]
      rw [lookup_cons] at found
      split at found
      · cases found
        omega
      · have later := length_encode_le_of_lookup found
        omega

theorem decode_encode_of_lookup {raw : List (List UInt8 × Value)} {value : Value}
    (fits : Fits (encode (.dict raw))) (found : raw.lookup key = some value) :
    decode (encode value) = .ok (value.collected insertEntry) := by
  apply decode_encode
  have shorter := length_encode_le_of_lookup found
  rw [Fits, encode, length_cons, length_append] at fits
  rw [Fits]
  omega

theorem extractionAgrees_of_occurrencesAgree (fits : Fits data) (read : decode data = .ok (.dict entries))
    (same : OccurrencesAgree data key) : ExtractionAgrees data key entries := by
  refine ⟨extractDictKeyRaw_isSome_iff fits read, ?_⟩
  intro slice returned
  rcases transcribe_of_decode_dict fits read with ⟨raw, written, shape, last⟩
  rcases same with ⟨_, transcript, same⟩
  rw [written] at transcript
  cases transcript
  rw [shape] at fits returned
  rw [extractDictKeyRaw_encode raw key fits] at returned
  cases first : raw.lookup key with
  | none =>
    rw [first] at returned
    cases returned
  | some value =>
    rw [first] at returned same
    cases returned
    refine ⟨value.collected insertEntry, ?_, decode_encode_of_lookup fits first⟩
    rw [last key, <- same]
    rfl

theorem occurrencesAgree_of_extractionAgrees (fits : Fits data) (read : decode data = .ok (.dict entries))
    (agrees : ExtractionAgrees data key entries) : OccurrencesAgree data key := by
  rcases transcribe_of_decode_dict fits read with ⟨raw, written, shape, last⟩
  refine ⟨raw, written, ?_⟩
  rw [shape] at fits agrees
  have found := extractDictKeyRaw_encode raw key fits
  rw [<- last key]
  cases first : raw.lookup key with
  | none =>
    cases held : entries.lookup key with
    | none => rfl
    | some value =>
      rcases agrees.1.mpr ⟨value, held⟩ with ⟨_, returned⟩
      rw [found, first] at returned
      cases returned
  | some =>
    rw [first] at found
    rcases agrees.2 _ found with ⟨_, held, decoded⟩
    rw [decode_encode_of_lookup fits first] at decoded
    cases decoded
    exact held.symm

/-- For an accepted dictionary the walk agrees with the decoder about a key exactly when
the first and the last entry of that key agree. -/
theorem extractionAgrees_iff_occurrencesAgree (data key : List UInt8)
    (entries : List (List UInt8 × Value)) (fits : Fits data)
    (read : decode data = .ok (.dict entries)) :
    ExtractionAgrees data key entries <-> OccurrencesAgree data key := by
  constructor
  · intro agrees
    exact occurrencesAgree_of_extractionAgrees fits read agrees
  · intro same
    exact extractionAgrees_of_occurrencesAgree fits read same

/-- `d4:infoi1ee` with the key `info`. -/
theorem extractionAgrees_single_info :
    let data := [100, 52, 58, 105, 110, 102, 111, 105, 49, 101, 101]
    let info := [105, 110, 102, 111]
    ExtractionAgrees data info [(info, .int (Int64.ofInt 1))] <-> OccurrencesAgree data info :=
  extractionAgrees_iff_occurrencesAgree _ _ _ (by unfold Fits; decide) rfl

/-- `d4:infoi1e4:infoi2ee`: the decoder keeps the second value of `info`, and the slice
that is hashed is the first. -/
theorem extraction_of_repeated_info :
    let data := [100, 52, 58, 105, 110, 102, 111, 105, 49, 101, 52, 58, 105, 110, 102, 111,
      105, 50, 101, 101]
    let info := [105, 110, 102, 111]
    decode data = .ok (.dict [(info, .int (Int64.ofInt 2))]) ∧
      extractDictKeyRaw data info = .ok (some [105, 49, 101]) ∧
      ¬ ExtractionAgrees data info [(info, .int (Int64.ofInt 2))] := by
  refine ⟨rfl, rfl, ?_⟩
  rintro ⟨-, agree⟩
  rcases agree [105, 49, 101] rfl with ⟨_, held, decoded⟩
  cases held
  cases decoded

end TorrentPlayer.Meta
