import TorrentPlayer.Library.Guards
import TorrentPlayer.Library.Bits
import TorrentPlayer.Storage.Checkpoint

namespace TorrentPlayer.Storage

open Library PieceCheckpoint FileIdentity List

/-!
# Reading checkpoints back

The reader accepts exactly the files of the layout below, whatever their contents: there is
no checksum.  A written checkpoint is read back when its piece length is positive and its
paths are short, which the writer does not check.
-/

/-! ## Completion bits -/

theorem bitSet_eq (bits : List UInt8) (index : Nat) :
    bitSet bits index = (bits.getD (index / 8) 0).toBitVec.getLsbD (index % 8) :=
  and_byteBit_ne_zero _ (Nat.mod_lt _ (by decide))

theorem bitSet_modify {bits : List UInt8} {index other : Nat} (inside : index / 8 < bits.length) :
    bitSet (bits.modify (index / 8) (· ||| 1 <<< UInt8.ofNat (index % 8))) other =
      (bitSet bits other || decide (other = index)) := by
  have small : index % 8 < 8 := Nat.mod_lt _ (by decide)
  have small' : other % 8 < 8 := Nat.mod_lt _ (by decide)
  rw [bitSet_eq, bitSet_eq]
  by_cases near : other / 8 = index / 8
  · have same : decide (other = index) = decide (other % 8 = index % 8) := by
      rw [decide_eq_decide]
      omega
    have changed : (bits.modify (index / 8) (· ||| 1 <<< UInt8.ofNat (index % 8))).getD
        (index / 8) 0 = bits.getD (index / 8) 0 ||| 1 <<< UInt8.ofNat (index % 8) := by
      simp [getD_eq_getElem?_getD, getElem?_eq_getElem inside]
    rw [near, changed, same, getLsbD_or_byteBit _ small small']
  · have differ : decide (other = index) = false := by
      rw [decide_eq_false_iff_not]
      omega
    have kept : (bits.modify (index / 8) (· ||| 1 <<< UInt8.ofNat (index % 8))).getD
        (other / 8) 0 = bits.getD (other / 8) 0 := by
      simp [getD_eq_getElem?_getD, Ne.symm near]
    rw [differ, Bool.or_false, kept]

theorem length_setBits (start : Nat) (complete : List Bool) (out : List UInt8) :
    (setBits start complete out).length = out.length := by
  induction complete generalizing start out with
  | nil => rfl
  | cons ok complete ih =>
    rw [setBits, ih]
    split
    · exact length_modify _ _ _
    · rfl

theorem bitSet_setBits {start : Nat} {complete : List Bool} {out : List UInt8}
    (room : start + complete.length <= 8 * out.length) (other : Nat) :
    bitSet (setBits start complete out) other =
      (bitSet out other || (decide (start <= other) && complete.getD (other - start) false)) := by
  induction complete generalizing start out with
  | nil => simp [setBits]
  | cons ok complete ih =>
    rw [length_cons] at room
    have inside : start / 8 < out.length := by omega
    have step : ∀ out' : List UInt8, out'.length = out.length ->
        bitSet out' other = (bitSet out other || (ok && decide (other = start))) ->
        bitSet (setBits (start + 1) complete out') other = (bitSet out other ||
            (decide (start <= other) && (ok :: complete).getD (other - start) false)) := by
      intro out' same here
      rw [ih (by omega), here]
      by_cases at' : other = start
      · simp [at']
      by_cases later : start <= other
      · have index : other - start = other - (start + 1) + 1 := by omega
        have next : start + 1 <= other := by omega
        simp [at', later, next, index]
      · have notNext : ¬ start + 1 <= other := by omega
        simp [at', later, notNext]
    rw [setBits]
    cases ok with
    | true =>
      rw [if_pos rfl]
      apply step
      · exact length_modify _ _ _
      · rw [bitSet_modify inside, Bool.true_and]
    | false =>
      rw [if_neg (by decide)]
      apply step
      · rfl
      · rw [Bool.false_and, Bool.or_false]

theorem bitSet_replicate (count index : Nat) : bitSet (List.replicate count 0) index = false := by
  rw [bitSet_eq, getD_eq_getElem?_getD, getElem?_replicate]
  split
  · simp
  · simp

theorem decodeBitfield_bitfieldBytes {checkpoint : PieceCheckpoint}
    (counted : checkpoint.complete.length = checkpoint.numPieces) :
    decodeBitfield checkpoint.bitfieldBytes checkpoint.numPieces = checkpoint.complete := by
  apply ext_getElem
  · rw [decodeBitfield, length_map, length_range, counted]
  · intro index inside inside'
    have room : 0 + checkpoint.complete.length <=
        8 * (List.replicate ((checkpoint.numPieces + 7) / 8) (0 : UInt8)).length := by
      rw [length_replicate]
      omega
    have bit : bitSet checkpoint.bitfieldBytes index = checkpoint.complete[index] := by
      rw [bitfieldBytes, bitSet_setBits room, bitSet_replicate]
      simp [inside']
    simp only [decodeBitfield, getElem_map, getElem_range]
    exact bit

theorem length_bitfieldBytes (checkpoint : PieceCheckpoint) :
    checkpoint.bitfieldBytes.length = (checkpoint.numPieces + 7) / 8 := by
  rw [bitfieldBytes, length_setBits, length_replicate]

variable {width : Nat}

theorem field_append_right {before rest : List UInt8} {offset skipped : Nat}
    (split : before.length + skipped = offset) :
    field (before ++ rest) offset width = field rest skipped width := by
  rw [field, drop_append, drop_eq_nil_of_le (by omega), nil_append]
  congr 2
  omega

theorem field_append_left {middle after : List UInt8} (whole : middle.length = width) :
    field (middle ++ after) 0 width = middle := by
  rw [field, drop_zero, <- whole, take_left]

theorem field_zero_of_length {middle : List UInt8} (whole : middle.length = width) :
    field middle 0 width = middle := by
  rw [field, drop_zero, <- whole, take_length]

variable {data : List UInt8}

theorem length_field {offset : Nat} (inside : offset + width <= data.length) :
    (field data offset width).length = width := by
  rw [field, length_take, length_drop]
  omega

theorem eq_field_append (offset width : Nat) :
    data.drop offset = field data offset width ++ data.drop (offset + width) := by
  rw [field, <- drop_drop, take_append_drop]

theorem ofNat_ofBigEndian_bigEndian (number : UInt64) :
    UInt64.ofNat (ofBigEndian (bigEndian 8 number.toNat)) = number := by
  have small : number.toNat < 256 ^ 8 := number.toNat_lt
  rw [ofBigEndian_bigEndian, Nat.mod_eq_of_lt small, UInt64.ofNat_toNat]

theorem i64OfBytes_bigEndian (number : Int64) : i64OfBytes (bigEndian 8 number.toUInt64.toNat) = number := by
  rw [i64OfBytes, ofNat_ofBigEndian_bigEndian, Int64.toInt64_toUInt64]

/-! ## Records -/

theorem length_fixedBytes (file : FileIdentity) : file.fixedBytes.length = 33 := by
  simp [fixedBytes]

theorem identityOf_fixedBytes (file : FileIdentity) : identityOf file.fixedBytes file.path.bytes = file := by
  have flag : decide (file.fixedBytes.head? = some 1) = file.external := by
    rw [fixedBytes]
    cases file.external with
    | true | false => rfl
  have wide : ∀ number, (bigEndian 8 number).length = 8 := length_bigEndian 8
  have skip (number offset : Nat) (rest : List UInt8) :
      field (bigEndian 8 number ++ rest) (8 + offset) 8 = field rest offset 8 :=
    field_append_right (by rw [wide])
  have first : field file.fixedBytes 1 8 = bigEndian 8 file.dev.toNat := by
    rw [fixedBytes, field_append_right (show [_].length + 0 = 1 from rfl), field_append_left (wide _)]
  have second : field file.fixedBytes 9 8 = bigEndian 8 file.ino.toNat := by
    rw [fixedBytes, field_append_right (show [_].length + (8 + 0) = 9 from rfl), skip,
      field_append_left (wide _)]
  have third : field file.fixedBytes 17 8 = bigEndian 8 file.length.toUInt64.toNat := by
    rw [fixedBytes, field_append_right (show [_].length + (8 + (8 + 0)) = 17 from rfl), skip, skip,
      field_append_left (wide _)]
  have fourth : field file.fixedBytes 25 8 = bigEndian 8 file.modNano.toUInt64.toNat := by
    rw [fixedBytes, field_append_right (show [_].length + (8 + (8 + (8 + 0))) = 25 from rfl), skip, skip,
      skip, field_zero_of_length (wide _)]
  rw [identityOf, flag, first, second, third, fourth, ofNat_ofBigEndian_bigEndian,
    ofNat_ofBigEndian_bigEndian, i64OfBytes_bigEndian, i64OfBytes_bigEndian, Text.lossy_bytes]

section
variable {fixed path rest : List UInt8} (whole : fixed.length = 33)
include whole

theorem field_pathLength :
    ofBigEndian (field (recordBytes fixed path ++ rest) 33 4) = path.length % 2 ^ 32 := by
  rw [recordBytes, append_assoc, field_append_right (show fixed.length + 0 = 33 from whole),
    append_assoc, field_append_left (length_bigEndian 4 _), ofBigEndian_bigEndian]
  rfl

theorem field_fixed : field (recordBytes fixed path ++ rest) 0 33 = fixed := by
  rw [recordBytes, append_assoc, field_append_left whole]

theorem length_recordBytes : (recordBytes fixed path).length = 37 + path.length := by
  rw [recordBytes, length_append, length_append, length_bigEndian]
  omega

theorem readFiles_record (count : Nat) (short : path.length <= maxCheckpointPath) :
    readFiles (count + 1) (recordBytes fixed path ++ rest) = match readFiles count rest with
      | .error error => .error error
      | .ok (files, rest') => .ok (identityOf fixed path :: files, rest') := by
  have small : path.length % 2 ^ 32 = path.length := by
    rw [maxCheckpointPath] at short
    exact Nat.mod_eq_of_lt (by omega)
  have long : (recordBytes fixed path).length = 37 + path.length := length_recordBytes whole
  have body : field (recordBytes fixed path ++ rest) 37 path.length = path := by
    rw [recordBytes, append_assoc, field_append_right (show fixed.length + 4 = 37 by omega),
      append_assoc, field_append_right (show (bigEndian 4 _).length + 0 = 4 by simp),
      field_append_left rfl]
  have after : (recordBytes fixed path ++ rest).drop (37 + path.length) = rest := by rw [<- long, drop_left]
  rewrite [readFiles, field_pathLength whole, field_fixed whole, small, body, after, length_append,
    if_neg (by omega), if_neg (by omega)]
  rfl

end

/-- The records of a list of fixed fields and paths. -/
def recordsBytes (records : List (List UInt8 × List UInt8)) : List UInt8 :=
  records.flatMap (fun record => recordBytes record.1 record.2)

/-- A record that the reader takes. -/
def RecordFits (record : List UInt8 × List UInt8) : Prop :=
  record.1.length = 33 /\ record.2.length <= maxCheckpointPath

theorem readFiles_records {records : List (List UInt8 × List UInt8)}
    (fits : ∀ record ∈ records, RecordFits record) (rest : List UInt8) :
    readFiles records.length (recordsBytes records ++ rest) =
    .ok (records.map (fun record => identityOf record.1 record.2), rest) := by
  induction records with
  | nil => rfl
  | cons record records ih =>
    have own := fits record (mem_cons.mpr (Or.inl rfl))
    have later := ih (fun other member => fits other (mem_cons_of_mem _ member))
    rw [recordsBytes, flatMap_cons, append_assoc, length_cons, readFiles_record own.1 _ own.2]
    rw [recordsBytes] at later
    rw [later, map_cons]

/-- The loop accepts nothing else. -/
theorem readFiles_eq_ok {count : Nat} {rest : List UInt8} {files : List FileIdentity}
    (read : readFiles count data = .ok (files, rest)) : Exists fun records => records.length = count /\
    data = recordsBytes records ++ rest /\ files = records.map
    (fun record => identityOf record.1 record.2) /\ ∀ record ∈ records, RecordFits record := by
  induction count generalizing data files with
  | zero =>
    cases read
    exact ⟨[], rfl, rfl, rfl, by simp⟩
  | succ count ih =>
    rw [readFiles] at read
    rcases error_else_eq_ok.mp read with ⟨_, read⟩
    rcases error_else_eq_ok.mp read with ⟨_, read⟩
    split at read
    · cases read
    next later rest' next =>
      cases read
      rcases ih next with ⟨records, counted, shape, identities, fits⟩
      have pathLength : (field data 37 (ofBigEndian (field data 33 4))).length =
          ofBigEndian (field data 33 4) := length_field (by omega)
      refine ⟨(field data 0 33, field data 37 (ofBigEndian (field data 33 4))) :: records,
        by rw [length_cons, counted], ?_, by rw [map_cons, identities], ?_⟩
      · have spelled : bigEndian 4 (ofBigEndian (field data 33 4)) = field data 33 4 := by
          have width : (field data 33 4).length = 4 := length_field (by omega)
          have same := bigEndian_ofBigEndian (field data 33 4)
          rw [width] at same
          exact same
        rw [recordsBytes, flatMap_cons, append_assoc, <- recordsBytes, <- shape,
          recordBytes, pathLength, spelled, append_assoc, append_assoc,
          <- eq_field_append 37, <- eq_field_append 33, <- eq_field_append 0, drop_zero]
      · intro record member
        rcases mem_cons.mp member with rfl | inside
        · exact ⟨length_field (by omega), by rw [pathLength]; omega⟩
        · exact fits record inside

/-! ## Whole files -/

/-- The contents of a file of the layout: the raw fields, and the bytes after them. -/
structure Layout where
  infoHash : List UInt8
  pieceLength : List UInt8
  numPieces : Nat
  records : List (List UInt8 × List UInt8)
  bits : List UInt8
  trailing : List UInt8

namespace Layout

def bytes (layout : Layout) : List UInt8 :=
  layoutBytes layout.infoHash layout.pieceLength layout.numPieces layout.records.length
    (recordsBytes layout.records) layout.bits ++ layout.trailing

/-- The sizes of the fields and the bounds that the reader checks. -/
structure Fits (layout : Layout) : Prop where
  infoHash : layout.infoHash.length = 20
  pieceLength : layout.pieceLength.length = 8
  positive : 0 < i64OfBytes layout.pieceLength
  numPieces : layout.numPieces <= maxCheckpointPieces
  numFiles : layout.records.length <= maxCheckpointFiles
  records : ∀ record ∈ layout.records, RecordFits record
  bits : layout.bits.length = (layout.numPieces + 7) / 8

def checkpoint (layout : Layout) : PieceCheckpoint where
  infoHash := Vector.ofFn (fun index => layout.infoHash.getD index 0)
  pieceLength := i64OfBytes layout.pieceLength
  numPieces := layout.numPieces
  files := layout.records.map (fun record => identityOf record.1 record.2)
  complete := decodeBitfield layout.bits layout.numPieces

section
variable {infoHash pieceLength rest : List UInt8} {numPieces numFiles : Nat}

/-- The fixed header and what follows it. -/
def header (infoHash pieceLength : List UInt8) (numPieces numFiles : Nat)
    (rest : List UInt8) : List UInt8 :=
  bigEndian 4 checkpointMagic ++ (bigEndian 4 checkpointVersion ++ (infoHash ++ (pieceLength ++
    (bigEndian 4 numPieces ++ (bigEndian 4 numFiles ++ rest)))))

theorem bytes_eq_header (layout : Layout) :
    layout.bytes = header layout.infoHash layout.pieceLength layout.numPieces
    layout.records.length (recordsBytes layout.records ++ (layout.bits ++ layout.trailing)) := by
  simp only [bytes, layoutBytes, header, append_assoc]

variable (hash : infoHash.length = 20) (piece : pieceLength.length = 8)

theorem field_magic : field (header infoHash pieceLength numPieces numFiles rest) 0 4 =
    bigEndian 4 checkpointMagic := by
  rw [header, field_append_left (length_bigEndian 4 _)]

theorem field_version : field (header infoHash pieceLength numPieces numFiles rest) 4 4 =
    bigEndian 4 checkpointVersion := by
  rw [header, field_append_right (show (bigEndian 4 _).length + 0 = 4 by simp),
    field_append_left (length_bigEndian 4 _)]

include hash

theorem field_infoHash : field (header infoHash pieceLength numPieces numFiles rest) 8 20 = infoHash := by
  rw [header, field_append_right (show (bigEndian 4 _).length + 4 = 8 by simp),
    field_append_right (show (bigEndian 4 _).length + 0 = 4 by simp), field_append_left hash]

include piece

theorem field_pieceLength :
    field (header infoHash pieceLength numPieces numFiles rest) 28 8 = pieceLength := by
  rw [header, field_append_right (show (bigEndian 4 _).length + 24 = 28 by simp),
    field_append_right (show (bigEndian 4 _).length + 20 = 24 by simp),
    field_append_right (show infoHash.length + 0 = 20 from hash), field_append_left piece]

theorem field_numPieces :
    field (header infoHash pieceLength numPieces numFiles rest) 36 4 = bigEndian 4 numPieces := by
  rw [header, field_append_right (show (bigEndian 4 _).length + 32 = 36 by simp),
    field_append_right (show (bigEndian 4 _).length + 28 = 32 by simp),
    field_append_right (show infoHash.length + 8 = 28 by omega),
    field_append_right (show pieceLength.length + 0 = 8 from piece),
    field_append_left (length_bigEndian 4 _)]

theorem field_numFiles :
    field (header infoHash pieceLength numPieces numFiles rest) 40 4 = bigEndian 4 numFiles := by
  rw [header, field_append_right (show (bigEndian 4 _).length + 36 = 40 by simp),
    field_append_right (show (bigEndian 4 _).length + 32 = 36 by simp),
    field_append_right (show infoHash.length + 12 = 32 by omega),
    field_append_right (show pieceLength.length + 4 = 12 by omega),
    field_append_right (show (bigEndian 4 _).length + 0 = 4 by simp),
    field_append_left (length_bigEndian 4 _)]

theorem length_header : (header infoHash pieceLength numPieces numFiles rest).length = 44 + rest.length := by
  simp only [header, length_append, length_bigEndian, hash, piece]
  omega

theorem drop_header : (header infoHash pieceLength numPieces numFiles rest).drop 44 = rest := by
  have split : header infoHash pieceLength numPieces numFiles rest =
      header infoHash pieceLength numPieces numFiles [] ++ rest := by
    simp only [header, append_assoc, append_nil]
  have long : (header infoHash pieceLength numPieces numFiles []).length = 44 := by
    rw [length_header hash piece, length_nil]
  rw [split, <- long, drop_left]

theorem readLayout_header (small : numPieces < 256 ^ 4) (few : numFiles < 256 ^ 4) :
    readLayout (header infoHash pieceLength numPieces numFiles rest) =
      if maxCheckpointPieces < numPieces \/ i64OfBytes pieceLength <= 0 then
        .error (.other "invalid checkpoint header") else if maxCheckpointFiles < numFiles then
        .error (.other "invalid checkpoint file count") else match readFiles numFiles rest with
        | .error error => .error error
        | .ok (files, rest) =>
          if rest.length < (numPieces + 7) / 8 then
            .error (.other "truncated bitfield")
          else
            .ok ({
              infoHash := Vector.ofFn (fun index => infoHash.getD index 0)
              pieceLength := i64OfBytes pieceLength
              numPieces := numPieces
              files := files
              complete := decodeBitfield (rest.take ((numPieces + 7) / 8)) numPieces },
              rest.drop ((numPieces + 7) / 8)) := by
  have pieces : ofBigEndian (bigEndian 4 numPieces) = numPieces := by
    rw [ofBigEndian_bigEndian, Nat.mod_eq_of_lt small]
  have files : ofBigEndian (bigEndian 4 numFiles) = numFiles := by
    rw [ofBigEndian_bigEndian, Nat.mod_eq_of_lt few]
  rewrite [readLayout, length_header hash piece, if_neg (by omega), field_magic,
    if_neg (by decide), field_version, if_neg (by decide), field_numPieces hash piece, pieces,
    field_pieceLength hash piece, if_neg (show ¬ 44 + rest.length < 44 by omega),
    field_numFiles hash piece, files, drop_header hash piece, field_infoHash hash]
  rfl

end

theorem readLayout_bytes {layout : Layout} (fits : layout.Fits) :
    readLayout layout.bytes = .ok (layout.checkpoint, layout.trailing) := by
  have pieces := fits.numPieces
  have files := fits.numFiles
  rw [maxCheckpointPieces] at pieces
  rw [maxCheckpointFiles] at files
  have header' : ¬ (maxCheckpointPieces < layout.numPieces \/ i64OfBytes layout.pieceLength <= 0) := by
    rintro (many | small)
    · exact absurd fits.numPieces (by omega)
    · exact absurd fits.positive (Int64.not_lt.mpr small)
  have bits := fits.bits
  rw [bytes_eq_header, readLayout_header fits.infoHash fits.pieceLength (by omega) (by omega),
    if_neg header', if_neg (Nat.not_lt.mpr fits.numFiles), readFiles_records fits.records]
  dsimp only
  rw [if_neg (by rw [length_append]; omega), <- bits, take_left, drop_left, checkpoint]

theorem eq_header (long : 44 <= data.length) (magic : ofBigEndian (field data 0 4) = checkpointMagic)
    (version : ofBigEndian (field data 4 4) = checkpointVersion) :
    data = header (field data 8 20) (field data 28 8) (ofBigEndian (field data 36 4))
    (ofBigEndian (field data 40 4)) (data.drop 44) := by
  have spelled : ∀ offset, offset + 4 <= data.length ->
      bigEndian 4 (ofBigEndian (field data offset 4)) = field data offset 4 := by
    intro offset inside
    have same := bigEndian_ofBigEndian (field data offset 4)
    rw [length_field inside] at same
    exact same
  rw [header, <- magic, <- version, spelled 0 (by omega), spelled 4 (by omega),
    spelled 36 (by omega), spelled 40 (by omega), <- eq_field_append 40, <- eq_field_append 36,
    <- eq_field_append 28, <- eq_field_append 8, <- eq_field_append 4, <- eq_field_append 0,
    drop_zero]

theorem readLayout_eq_ok {rest : List UInt8} {found : PieceCheckpoint}
    (read : readLayout data = .ok (found, rest)) : Exists fun layout : Layout => layout.Fits /\
    data = layout.bytes /\ found = layout.checkpoint /\ rest = layout.trailing := by
  rw [readLayout] at read
  rcases error_else_eq_ok.mp read with ⟨_, read⟩
  rcases error_else_eq_ok.mp read with ⟨magic, read⟩
  rcases error_else_eq_ok.mp read with ⟨version, read⟩
  rcases error_else_eq_ok.mp read with ⟨sound, read⟩
  rcases error_else_eq_ok.mp read with ⟨_, read⟩
  rcases error_else_eq_ok.mp read with ⟨_, read⟩
  split at read
  · cases read
  rename_i files after listed
  split at read
  · cases read
  rcases Prod.mk.inj (Except.ok.inj read) with ⟨decoded, left⟩
  rcases readFiles_eq_ok listed with ⟨records, counted, shape, identities, fits⟩
  have bounds := not_or.mp sound
  have bits' : (after.take ((ofBigEndian (field data 36 4) + 7) / 8)).length =
      (ofBigEndian (field data 36 4) + 7) / 8 := by
    rw [length_take]
    omega
  refine ⟨⟨field data 8 20, field data 28 8, ofBigEndian (field data 36 4), records,
    after.take ((ofBigEndian (field data 36 4) + 7) / 8),
    after.drop ((ofBigEndian (field data 36 4) + 7) / 8)⟩, ?_, ?_, ?_, left.symm⟩
  · exact ⟨length_field (by omega), length_field (by omega), Int64.not_le.mp bounds.2, Nat.not_lt.mp bounds.1,
      by dsimp only; omega, fits, bits'⟩
  · rw [bytes_eq_header]
    rw [counted, take_append_drop, <- shape]
    exact eq_header (by omega) (not_not.mp magic) (not_not.mp version)
  · rw [checkpoint, <- decoded, identities]

end Layout

/-- A file that the reader takes: the layout with sizes inside the bounds, and any contents. -/
def WellFormed (data : List UInt8) : Prop :=
  Exists fun layout : Layout => layout.Fits /\ data = layout.bytes

theorem readPieceCheckpoint_isOk_iff (data : List UInt8) :
    (Exists fun found => readPieceCheckpoint data = .ok found) <-> WellFormed data := by
  constructor
  · rintro ⟨found, read⟩
    rw [readPieceCheckpoint] at read
    split at read
    · cases read
    next checkpoint rest parsed =>
      rcases Layout.readLayout_eq_ok parsed with ⟨layout, fits, shape, -, -⟩
      exact ⟨layout, fits, shape⟩
  · rintro ⟨layout, fits, shape⟩
    refine ⟨layout.checkpoint, ?_⟩
    rw [readPieceCheckpoint, shape, Layout.readLayout_bytes fits]

/-! ## Written checkpoints -/

namespace PieceCheckpoint

def layout (checkpoint : PieceCheckpoint) : Layout where
  infoHash := checkpoint.infoHash.toList
  pieceLength := bigEndian 8 checkpoint.pieceLength.toUInt64.toNat
  numPieces := checkpoint.numPieces
  records := checkpoint.files.map (fun file => (file.fixedBytes, file.path.bytes))
  bits := checkpoint.bitfieldBytes
  trailing := []

/-- The values that the reader takes back: the writer checks neither the piece length nor the
paths. -/
structure Readable (checkpoint : PieceCheckpoint) : Prop where
  pieceLength : 0 < checkpoint.pieceLength
  paths : ∀ file ∈ checkpoint.files, file.path.bytes.length <= maxCheckpointPath

end PieceCheckpoint

variable {written : List UInt8}

section
variable {checkpoint : PieceCheckpoint}

theorem writePieceCheckpoint_eq_ok (accepted : writePieceCheckpoint checkpoint = .ok written) :
    checkpoint.numPieces <= maxCheckpointPieces /\ checkpoint.complete.length = checkpoint.numPieces /\
    checkpoint.files.length <= maxCheckpointFiles /\ written = checkpoint.layout.bytes := by
  rw [writePieceCheckpoint] at accepted
  rcases error_else_eq_ok.mp accepted with ⟨_, accepted⟩
  rcases error_else_eq_ok.mp accepted with ⟨_, ⟨⟩⟩
  refine ⟨by omega, by omega, by omega, ?_⟩
  rw [Layout.bytes, layout]
  rw [append_nil, length_map, recordsBytes, flatMap_map]
  rfl

theorem checkpoint_layout (counted : checkpoint.complete.length = checkpoint.numPieces) :
    checkpoint.layout.checkpoint = checkpoint := by
  have hash : (Vector.ofFn (fun index : Fin 20 => checkpoint.infoHash.toList.getD index 0)) =
      checkpoint.infoHash := by
    apply Vector.ext
    intro index inside
    simp
  have files : (checkpoint.files.map (fun file => (file.fixedBytes, file.path.bytes))).map
      (fun record => identityOf record.1 record.2) = checkpoint.files := by
    rw [map_map]
    refine Eq.trans (map_congr_left ?_) (map_id _)
    intro file _
    exact identityOf_fixedBytes file
  rw [Layout.checkpoint, layout]
  rw [hash, i64OfBytes_bigEndian, files, decodeBitfield_bitfieldBytes counted]

theorem fits_layout (accepted : writePieceCheckpoint checkpoint = .ok written)
    (readable : checkpoint.Readable) : checkpoint.layout.Fits := by
  rcases writePieceCheckpoint_eq_ok accepted with ⟨pieces, _, files, -⟩
  refine ⟨?_, length_bigEndian 8 _, ?_, pieces, ?_, ?_, length_bitfieldBytes checkpoint⟩
  · exact Vector.length_toList
  · rw [layout]
    rw [i64OfBytes_bigEndian]
    exact readable.pieceLength
  · rw [layout]
    rw [length_map]
    exact files
  · intro record member
    rcases mem_map.mp member with ⟨file, inside, rfl⟩
    exact ⟨length_fixedBytes file, readable.paths file inside⟩

end

/-- Files that are read back as they were written have short paths.  A longer path is refused,
unless its length loses its upper bits, and then another path is read. -/
theorem length_path_le_of_readFiles {files : List FileIdentity} {rest after : List UInt8}
    (read : readFiles files.length
      (recordsBytes (files.map (fun file => (file.fixedBytes, file.path.bytes))) ++ rest) =
      .ok (files, after)) :
    ∀ file ∈ files, file.path.bytes.length <= maxCheckpointPath := by
  induction files with
  | nil => nofun
  | cons first files ih =>
    have whole := length_fixedBytes first
    rw [map_cons, recordsBytes, flatMap_cons, append_assoc, <- recordsBytes, length_cons] at read
    dsimp only at read
    have short : first.path.bytes.length <= maxCheckpointPath := by
      rw [readFiles, field_pathLength whole] at read
      rcases error_else_eq_ok.mp read with ⟨_, read⟩
      rcases error_else_eq_ok.mp read with ⟨bound, read⟩
      split at read
      · cases read
      have path := congrArg path (List.cons.inj (Prod.mk.inj (Except.ok.inj read)).1).1
      have long := congrArg (fun text => text.bytes.length) path
      dsimp only [identityOf, Text.lossy] at long
      have limit := length_fromUtf8Lossy_le (field (recordBytes first.fixedBytes first.path.bytes ++
          (recordsBytes (files.map (fun file => (file.fixedBytes, file.path.bytes))) ++
            rest)) 37 (first.path.bytes.length % 2 ^ 32))
      have cut : (field (recordBytes first.fixedBytes first.path.bytes ++
          (recordsBytes (files.map (fun file => (file.fixedBytes, file.path.bytes))) ++
            rest)) 37 (first.path.bytes.length % 2 ^ 32)).length <=
          first.path.bytes.length % 2 ^ 32 := by
        exact length_take_le _ _
      rw [maxCheckpointPath] at bound ⊢
      omega
    rw [readFiles_record whole _ short] at read
    split at read
    · cases read
    next later after' next =>
      rcases Prod.mk.inj (Except.ok.inj read) with ⟨same, left⟩
      rw [(List.cons.inj same).2, left] at next
      intro file member
      rcases mem_cons.mp member with rfl | inside
      · exact short
      · exact ih next file inside

theorem readLayout_of_readPieceCheckpoint {found : PieceCheckpoint}
    (read : readPieceCheckpoint data = .ok found) :
    Exists fun rest => readLayout data = .ok (found, rest) := by
  rw [readPieceCheckpoint] at read
  split at read
  · cases read
  next checkpoint rest parsed =>
    cases read
    exact ⟨rest, parsed⟩

theorem readPieceCheckpoint_written_iff {checkpoint : PieceCheckpoint}
    (accepted : writePieceCheckpoint checkpoint = .ok written) :
    readPieceCheckpoint written = .ok checkpoint <-> checkpoint.Readable := by
  rcases writePieceCheckpoint_eq_ok accepted with ⟨pieces, counted, files, shape⟩
  constructor
  · intro read
    rcases readLayout_of_readPieceCheckpoint read with ⟨_, parsed⟩
    refine ⟨?_, ?_⟩
    · rcases Layout.readLayout_eq_ok parsed with ⟨_, fits, -, same, -⟩
      rw [same]
      exact fits.positive
    · rw [maxCheckpointPieces] at pieces
      rw [maxCheckpointFiles] at files
      have hash : checkpoint.layout.infoHash.length = 20 := Vector.length_toList
      have piece : checkpoint.layout.pieceLength.length = 8 := length_bigEndian 8 _
      have small : checkpoint.layout.numPieces < 256 ^ 4 := by
        rw [layout]
        dsimp only
        omega
      have few : checkpoint.layout.records.length < 256 ^ 4 := by
        rw [layout, length_map]
        omega
      rw [shape, Layout.bytes_eq_header, Layout.readLayout_header hash piece small few] at parsed
      rcases error_else_eq_ok.mp parsed with ⟨_, parsed⟩
      rcases error_else_eq_ok.mp parsed with ⟨_, parsed⟩
      split at parsed
      · cases parsed
      rename_i found after listed
      rcases error_else_eq_ok.mp parsed with ⟨_, parsed⟩
      have same := congrArg PieceCheckpoint.files (Prod.mk.inj (Except.ok.inj parsed)).1
      dsimp only at same
      rw [same, PieceCheckpoint.layout, length_map] at listed
      exact length_path_le_of_readFiles listed
  · intro readable
    rw [readPieceCheckpoint, shape, Layout.readLayout_bytes (fits_layout accepted readable)]
    rw [checkpoint_layout counted]

/-- A file that does not begin with the written one: a byte differs, or the end is missing. -/
def Damaged (written data : List UInt8) : Prop :=
  ¬ written <+: data

/-- What is written is read back, and a damaged file is refused, exactly when the value is
readable and the damaged file is not itself a file of the layout. -/
theorem checkpoint_round_trip_iff (checkpoint : PieceCheckpoint) (written data : List UInt8)
    (accepted : writePieceCheckpoint checkpoint = .ok written) :
    (readPieceCheckpoint written = .ok checkpoint ∧
      (Damaged written data -> Exists fun error => readPieceCheckpoint data = .error error)) <->
    checkpoint.Readable ∧ (Damaged written data -> ¬ WellFormed data) := by
  have refused : (Exists fun error => readPieceCheckpoint data = .error error) <->
      ¬ WellFormed data := by
    rw [<- readPieceCheckpoint_isOk_iff]
    cases readPieceCheckpoint data with
    | error | ok => simp
  rw [readPieceCheckpoint_written_iff accepted, refused]

/-- Two pieces, the first of them complete, and no files. -/
def sampleCheckpoint (pieceLength : Int64) (complete : List Bool) : PieceCheckpoint where
  infoHash := Vector.replicate 20 7
  pieceLength := pieceLength
  numPieces := 2
  files := []
  complete := complete

/-- The file of the sample, up to its byte of completion bits. -/
def sampleHeader : List UInt8 :=
  [0x57, 0x43, 0x50, 0x31, 0, 0, 0, 1] ++ List.replicate 20 7 ++
    [0, 0, 0, 0, 0, 0, 0, 4, 0, 0, 0, 2, 0, 0, 0, 0]

/-- The sample with a file `a` of eight bytes. -/
def sampleWithFile : PieceCheckpoint :=
  { sampleCheckpoint 4 [true, false] with
    files := [{ external := false, dev := 1, ino := 2, length := 8, modNano := 3, path := Text.lossy [97] }] }

/-- With another first byte the file is refused. -/
theorem checkpoint_round_trip_sample : Exists fun written =>
    writePieceCheckpoint sampleWithFile = .ok written ∧
    readPieceCheckpoint written = .ok sampleWithFile ∧
    (Damaged written (0 :: written.tail) ->
      Exists fun error => readPieceCheckpoint (0 :: written.tail) = .error error) := by
  refine ⟨_, rfl, (checkpoint_round_trip_iff sampleWithFile _ _ rfl).mpr ⟨⟨by decide, ?_⟩, fun _ => ?_⟩⟩
  · intro file member
    rw [mem_singleton.mp member]
    decide +kernel
  · rw [<- readPieceCheckpoint_isOk_iff]
    rintro ⟨_, read⟩
    cases read

/-- The writer accepts a piece length of zero, which the reader refuses; and with one
completion bit changed the file is read as another checkpoint. -/
theorem checkpoint_not_read_back : (Exists fun written =>
      writePieceCheckpoint (sampleCheckpoint 0 [true, false]) = .ok written ∧
      readPieceCheckpoint written = .error (.other "invalid checkpoint header")) ∧
    writePieceCheckpoint (sampleCheckpoint 4 [true, false]) = .ok (sampleHeader ++ [1]) ∧
    Damaged (sampleHeader ++ [1]) (sampleHeader ++ [3]) ∧
    readPieceCheckpoint (sampleHeader ++ [3]) = .ok (sampleCheckpoint 4 [true, true]) := by
  refine ⟨⟨[0x57, 0x43, 0x50, 0x31, 0, 0, 0, 1] ++ List.replicate 20 7 ++
    [0, 0, 0, 0, 0, 0, 0, 0, 0, 0, 0, 2, 0, 0, 0, 0, 1], by decide +kernel, by decide +kernel⟩,
    by decide +kernel, ?_, by decide +kernel⟩
  unfold Damaged
  decide +kernel

/-- A readable checkpoint whose end is missing is refused. -/
theorem truncated_checkpoint_refused (checkpoint : PieceCheckpoint) {written data : List UInt8}
    (accepted : writePieceCheckpoint checkpoint = .ok written) (readable : checkpoint.Readable)
    (start : data <+: written) (missing : data ≠ written) :
    Exists fun error => readPieceCheckpoint data = .error error := by
  by_contra taken
  have wellFormed : WellFormed data := by
    rw [<- readPieceCheckpoint_isOk_iff]
    cases read : readPieceCheckpoint data with
    | error error => exact absurd ⟨error, read⟩ taken
    | ok found => exact ⟨found, rfl⟩
  rcases wellFormed with ⟨layout, fits, shape⟩
  rcases start with ⟨more, whole⟩
  rcases writePieceCheckpoint_eq_ok accepted with ⟨-, -, -, bytes⟩
  have own := Layout.readLayout_bytes (fits_layout accepted readable)
  have longer : ({ layout with trailing := layout.trailing ++ more } : Layout).Fits :=
    ⟨fits.infoHash, fits.pieceLength, fits.positive, fits.numPieces, fits.numFiles, fits.records, fits.bits⟩
  have other := Layout.readLayout_bytes longer
  have same : ({ layout with trailing := layout.trailing ++ more } : Layout).bytes =
      checkpoint.layout.bytes := by
    rw [<- bytes, <- whole, shape, Layout.bytes, Layout.bytes, append_assoc]
  rw [same, own] at other
  have left : ([] : List UInt8) = layout.trailing ++ more :=
    (Prod.mk.inj (Except.ok.inj other)).2
  have none := (append_eq_nil_iff.mp left.symm).2
  rw [none, append_nil] at whole
  exact missing whole

theorem truncated_sample_refused : Exists fun error =>
    readPieceCheckpoint sampleHeader = .error error :=
  truncated_checkpoint_refused (sampleCheckpoint 4 [true, false]) (by decide +kernel) ⟨by decide, nofun⟩
    ⟨[1], rfl⟩ (by decide)

end TorrentPlayer.Storage
