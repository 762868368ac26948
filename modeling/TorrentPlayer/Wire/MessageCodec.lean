import TorrentPlayer.Library.BigEndian
import TorrentPlayer.Wire.Message

namespace TorrentPlayer.Wire

open Library List

/-!
# The bytes of a message

A message is framed by its length in four bytes.  The length covers a type byte
and the fields; a keepalive has neither.

The encoder writes the length with a narrowing cast.  For a message whose
payload is shorter than four gibibytes the payload decodes to the message.
-/

def putU16 (value : UInt16) : Bytes :=
  bigEndian 2 value.toNat

def putU32 (value : UInt32) : Bytes :=
  bigEndian 4 value.toNat

def getU8 (payload : Bytes) : UInt8 × Bytes :=
  (payload.headD 0, payload.drop 1)

def getU16 (payload : Bytes) : UInt16 × Bytes :=
  (.ofNat (ofBigEndian (payload.take 2)), payload.drop 2)

def getU32 (payload : Bytes) : UInt32 × Bytes :=
  (.ofNat (ofBigEndian (payload.take 4)), payload.drop 4)

/-- Copy 32 bytes over an array of zeros. -/
def getRoot (payload : Bytes) : Root × Bytes :=
  ({ bytes := (payload ++ List.replicate 32 0).take 32, size := by simp }, payload.drop 32)

@[simp] theorem getU16_putU16 (value : UInt16) (rest : Bytes) :
    getU16 (putU16 value ++ rest) = (value, rest) := by
  have small := value.toNat_lt
  rw [getU16, putU16, take_left' (length_bigEndian ..), drop_left' (length_bigEndian ..),
    ofBigEndian_bigEndian, Nat.mod_eq_of_lt (by omega), UInt16.ofNat_toNat]

variable (message : Message) (value : UInt32) (range : HashRange) (rest : Bytes) (roots : List Root)

@[simp] theorem getU32_putU32 : getU32 (putU32 value ++ rest) = (value, rest) := by
  have small := value.toNat_lt
  rw [getU32, putU32, take_left' (length_bigEndian ..), drop_left' (length_bigEndian ..),
    ofBigEndian_bigEndian, Nat.mod_eq_of_lt (by omega), UInt32.ofNat_toNat]

@[simp] theorem getRoot_bytes (root : Root) (rest : Bytes) : getRoot (root.bytes ++ rest) = (root, rest) := by
  rcases root with ⟨bytes, size⟩
  simp only [getRoot, append_assoc, take_left' size, drop_left' size]

@[simp] theorem length_putU16 (value : UInt16) : (putU16 value).length = 2 :=
  length_bigEndian ..

@[simp] theorem length_putU32 : (putU32 value).length = 4 :=
  length_bigEndian ..

/-! ## Types -/

inductive MessageType where
  | choke
  | unchoke
  | interested
  | notInterested
  | have
  | bitfield
  | request
  | piece
  | cancel
  | port
  | suggest
  | haveAll
  | haveNone
  | reject
  | allowedFast
  | extended
  | hashRequest
  | hashes
  | hashReject

namespace MessageType

def toU8 : MessageType -> UInt8
  | choke => 0
  | unchoke => 1
  | interested => 2
  | notInterested => 3
  | .have => 4
  | bitfield => 5
  | request => 6
  | piece => 7
  | cancel => 8
  | port => 9
  | suggest => 13
  | haveAll => 14
  | haveNone => 15
  | reject => 16
  | allowedFast => 17
  | extended => 20
  | hashRequest => 21
  | hashes => 22
  | hashReject => 23

def fromU8 (byte : UInt8) : Option MessageType :=
  match byte.toNat with
  | 0 => some choke
  | 1 => some unchoke
  | 2 => some interested
  | 3 => some notInterested
  | 4 => some .have
  | 5 => some bitfield
  | 6 => some request
  | 7 => some piece
  | 8 => some cancel
  | 9 => some port
  | 13 => some suggest
  | 14 => some haveAll
  | 15 => some haveNone
  | 16 => some reject
  | 17 => some allowedFast
  | 20 => some extended
  | 21 => some hashRequest
  | 22 => some hashes
  | 23 => some hashReject
  | _ => none

def name : MessageType -> String
  | choke => "Choke"
  | unchoke => "Unchoke"
  | interested => "Interested"
  | notInterested => "NotInterested"
  | .have => "Have"
  | bitfield => "Bitfield"
  | request => "Request"
  | piece => "Piece"
  | cancel => "Cancel"
  | port => "Port"
  | suggest => "Suggest"
  | haveAll => "HaveAll"
  | haveNone => "HaveNone"
  | reject => "Reject"
  | allowedFast => "AllowedFast"
  | extended => "Extended"
  | hashRequest => "HashRequest"
  | hashes => "Hashes"
  | hashReject => "HashReject"

@[simp] theorem fromU8_toU8 (type : MessageType) : fromU8 type.toU8 = some type := by
  cases type <;> rfl

end MessageType

namespace Message

/-- The length of a message without its four length bytes. -/
def payloadLen : Message -> Nat
  | .keepalive => 0
  | .choke | .unchoke | .interested | .notInterested | .haveAll | .haveNone => 1
  | .have _ | .suggest _ | .allowedFast _ => 1 + 4
  | .port _ => 1 + 2
  | .request .. | .cancel .. | .reject .. => 1 + 12
  | .bitfield bits => 1 + bits.length
  | .piece _ _ block => 1 + 8 + block.length
  | .extended _ payload => 1 + 1 + payload.length
  | .hashRequest _ | .hashReject _ => 1 + 32 + 16
  | .hashes _ roots => 1 + 32 + 16 + roots.length * 32

end Message

def putHashRange (range : HashRange) : Bytes :=
  range.piecesRoot.bytes ++ putU32 range.baseLayer ++ putU32 range.index ++ putU32 range.length ++
    putU32 range.proofLayers

namespace Message

/-- What follows the four length bytes. -/
def body : Message -> Bytes
  | .keepalive => []
  | .choke => [MessageType.choke.toU8]
  | .unchoke => [MessageType.unchoke.toU8]
  | .interested => [MessageType.interested.toU8]
  | .notInterested => [MessageType.notInterested.toU8]
  | .have index => MessageType.have.toU8 :: putU32 index
  | .bitfield bits => MessageType.bitfield.toU8 :: bits
  | .request index start length =>
    MessageType.request.toU8 :: (putU32 index ++ putU32 start ++ putU32 length)
  | .piece index start block =>
    MessageType.piece.toU8 :: (putU32 index ++ putU32 start ++ block)
  | .cancel index start length =>
    MessageType.cancel.toU8 :: (putU32 index ++ putU32 start ++ putU32 length)
  | .port number => MessageType.port.toU8 :: putU16 number
  | .suggest index => MessageType.suggest.toU8 :: putU32 index
  | .haveAll => [MessageType.haveAll.toU8]
  | .haveNone => [MessageType.haveNone.toU8]
  | .reject index start length =>
    MessageType.reject.toU8 :: (putU32 index ++ putU32 start ++ putU32 length)
  | .allowedFast index => MessageType.allowedFast.toU8 :: putU32 index
  | .extended id payload => MessageType.extended.toU8 :: id :: payload
  | .hashRequest range => MessageType.hashRequest.toU8 :: putHashRange range
  | .hashes range roots =>
    MessageType.hashes.toU8 :: (putHashRange range ++ roots.flatMap Root.bytes)
  | .hashReject range => MessageType.hashReject.toU8 :: putHashRange range

def encode (message : Message) : Bytes :=
  putU32 (.ofNat message.payloadLen) ++ if message.payloadLen = 0 then [] else message.body

end Message

/-! ## Decoding -/

inductive ErrorKind where
  | invalidData
  | unexpectedEof

structure WireError where
  kind : ErrorKind
  text : String

/-- A message without fields. -/
def decodeBare (type : MessageType) (message : Message) (payload : Bytes) : Except WireError Message :=
  let count := payload.length
  let name := type.name
  if payload.isEmpty then .ok message
  else .error { kind := .invalidData, text := s!"{count} unused bytes in message type {name}" }

def decodeFixed (type : MessageType) (length : Nat) (fields : Bytes -> Message)
    (payload : Bytes) : Except WireError Message :=
  let count := payload.length
  let name := type.name
  if count = length then .ok (fields payload)
  else .error { kind := .invalidData, text := s!"expected {length} bytes for {name}, got {count}" }

/-- The three numbers of a request, a cancel or a reject. -/
def getBlock (message : UInt32 -> UInt32 -> UInt32 -> Message) (payload : Bytes) : Message :=
  let index := getU32 payload
  let start := getU32 index.2
  let length := getU32 start.2
  message index.1 start.1 length.1

def decodePiece (payload : Bytes) : Except WireError Message :=
  let count := payload.length
  if count < 8 then
    .error
      { kind := .unexpectedEof
        text := s!"expected at least 8 bytes for Piece header, got {count}" }
  else
    let index := getU32 payload
    let start := getU32 index.2
    .ok (.piece index.1 start.1 start.2)

def decodeExtended (payload : Bytes) : Except WireError Message :=
  if payload.isEmpty then
    .error { kind := .unexpectedEof, text := "expected extended id byte" }
  else .ok (.extended (getU8 payload).1 (getU8 payload).2)

def getHashRange (payload : Bytes) : HashRange × Bytes :=
  let piecesRoot := getRoot payload
  let baseLayer := getU32 piecesRoot.2
  let index := getU32 baseLayer.2
  let length := getU32 index.2
  let proofLayers := getU32 length.2
  ({ piecesRoot := piecesRoot.1
     baseLayer := baseLayer.1
     index := index.1
     length := length.1
     proofLayers := proofLayers.1 }, proofLayers.2)

/-- Read a number of roots. -/
def getRoots : Nat -> Bytes -> List Root
  | 0, _ => []
  | count + 1, payload => (getRoot payload).1 :: getRoots count (getRoot payload).2

def decodeHashes (payload : Bytes) : Except WireError Message :=
  let count := payload.length
  if count < 32 + 16 || (count - (32 + 16)) % 32 != 0 then
    .error { kind := .invalidData, text := s!"invalid length for Hashes: {count}" }
  else
    let range := getHashRange payload
    .ok (.hashes range.1 (getRoots (range.2.length / 32) range.2))

def decodeFields : MessageType -> Bytes -> Except WireError Message
  | .choke => decodeBare .choke .choke
  | .unchoke => decodeBare .unchoke .unchoke
  | .interested => decodeBare .interested .interested
  | .notInterested => decodeBare .notInterested .notInterested
  | .have => decodeFixed .have 4 (fun payload => .have (getU32 payload).1)
  | .bitfield => fun payload => .ok (.bitfield payload)
  | .request => decodeFixed .request 12 (getBlock .request)
  | .piece => decodePiece
  | .cancel => decodeFixed .cancel 12 (getBlock .cancel)
  | .port => decodeFixed .port 2 (fun payload => .port (getU16 payload).1)
  | .suggest => decodeFixed .suggest 4 (fun payload => .suggest (getU32 payload).1)
  | .haveAll => decodeBare .haveAll .haveAll
  | .haveNone => decodeBare .haveNone .haveNone
  | .reject => decodeFixed .reject 12 (getBlock .reject)
  | .allowedFast => decodeFixed .allowedFast 4 (fun payload => .allowedFast (getU32 payload).1)
  | .extended => decodeExtended
  | .hashRequest =>
    decodeFixed .hashRequest 48 (fun payload => .hashRequest (getHashRange payload).1)
  | .hashes => decodeHashes
  | .hashReject =>
    decodeFixed .hashReject 48 (fun payload => .hashReject (getHashRange payload).1)

def decodePayload : Bytes -> Except WireError Message
  | [] => .ok .keepalive
  | id :: payload =>
    match MessageType.fromU8 id with
    | none => .error { kind := .invalidData, text := s!"unhandled message type: {id}" }
    | some type => decodeFields type payload

@[simp] theorem length_putHashRange : (putHashRange range).length = 48 := by
  simp [putHashRange, range.piecesRoot.size]

theorem length_flatMap_bytes : (roots.flatMap Root.bytes).length = roots.length * 32 := by
  induction roots with
  | nil => rfl
  | cons root =>
    rw [flatMap_cons, length_append, root.size, length_cons]
    omega

theorem Message.length_body : message.body.length = message.payloadLen := by
  cases message
  case hashes =>
    rw [body, payloadLen, length_cons, length_append, length_putHashRange, length_flatMap_bytes]
    omega
  all_goals
    simp only [body, payloadLen, length_cons, length_append, length_nil,
      length_putU16, length_putU32, length_putHashRange]
  all_goals omega

@[simp] theorem getHashRange_putHashRange : getHashRange (putHashRange range ++ rest) = (range, rest) := by
  simp only [getHashRange, putHashRange, append_assoc, getRoot_bytes, getU32_putU32]

theorem getRoots_bytes : getRoots roots.length (roots.flatMap Root.bytes) = roots := by
  induction roots with
  | nil => rfl
  | cons root roots ih => rw [length_cons, getRoots, flatMap_cons, getRoot_bytes, ih]

theorem decodeFixed_eq {type : MessageType} {length : Nat} {fields : Bytes -> Message} {payload : Bytes}
    (exact : payload.length = length) : decodeFixed type length fields payload = .ok (fields payload) :=
  if_pos exact

theorem getBlock_put (message : UInt32 -> UInt32 -> UInt32 -> Message) (index start length : UInt32) :
    getBlock message (putU32 index ++ putU32 start ++ putU32 length) = message index start length := by
  rw [<- append_nil (_ ++ putU32 length)]
  simp only [getBlock, append_assoc, getU32_putU32]

theorem getU32_put : getU32 (putU32 value) = (value, []) := by
  rw [<- append_nil (putU32 value), getU32_putU32]

theorem getHashRange_put : getHashRange (putHashRange range) = (range, []) := by
  rw [<- append_nil (putHashRange range), getHashRange_putHashRange]

theorem decodePiece_put (index start : UInt32) (block : Bytes) :
    decodePiece (putU32 index ++ putU32 start ++ block) = .ok (.piece index start block) := by
  have long : ¬ (putU32 index ++ putU32 start ++ block).length < 8 := by
    rw [length_append, length_append, length_putU32, length_putU32]
    omega
  rw [decodePiece, if_neg long]
  simp only [append_assoc, getU32_putU32]

theorem decodeHashes_put :
    decodeHashes (putHashRange range ++ roots.flatMap Root.bytes) = .ok (.hashes range roots) := by
  have length : (putHashRange range ++ roots.flatMap Root.bytes).length = 48 + roots.length * 32 := by
    rw [length_append, length_putHashRange, length_flatMap_bytes]
  have valid : ¬ ((putHashRange range ++ roots.flatMap Root.bytes).length < 32 + 16 ||
      ((putHashRange range ++ roots.flatMap Root.bytes).length - (32 + 16)) % 32 != 0) = true := by
    rw [length]
    simp
  rw [decodeHashes, if_neg valid, getHashRange_putHashRange]
  simp only [length_flatMap_bytes, Nat.mul_div_cancel _ (show 0 < 32 by decide), getRoots_bytes]

theorem decodePayload_body : decodePayload message.body = .ok message := by
  have typed : ∀ (type : MessageType) (payload : Bytes),
      decodePayload (type.toU8 :: payload) = decodeFields type payload := by
    intro type payload
    rw [decodePayload, MessageType.fromU8_toU8]
  cases message with
  | keepalive => rfl
  | choke | unchoke | interested | notInterested | haveAll | haveNone => rfl
  | «have» index | suggest index | allowedFast index =>
    rw [Message.body, typed, decodeFields, decodeFixed_eq (length_putU32 index), getU32_put]
  | bitfield => rw [Message.body, typed, decodeFields]
  | request | cancel | reject =>
    rw [Message.body, typed, decodeFields, decodeFixed_eq (by simp), getBlock_put]
  | piece => rw [Message.body, typed, decodeFields, decodePiece_put]
  | port port =>
    rw [Message.body, typed, decodeFields, decodeFixed_eq (length_putU16 port),
      <- append_nil (putU16 port), getU16_putU16]
  | extended => rw [Message.body, typed, decodeFields, decodeExtended]; rfl
  | hashRequest range | hashReject range =>
    rw [Message.body, typed, decodeFields, decodeFixed_eq (length_putHashRange range), getHashRange_put]
  | hashes => rw [Message.body, typed, decodeFields, decodeHashes_put]

end TorrentPlayer.Wire
