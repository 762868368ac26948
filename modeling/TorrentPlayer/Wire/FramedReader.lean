import TorrentPlayer.Wire.MessageCodec

namespace TorrentPlayer.Wire

open Library Message MessageType List Option

/-!
# Reading messages from a byte stream

The reader collects the bytes of a connection in a buffer and takes messages off
its front.  There are two ways to take one.  `readMsg` decodes the frame into a
message of its own.  The fast path waits for a whole frame, looks whether it is
a block, and if so hands out the block from the buffer before it drops the frame.

Both ways agree on where a frame ends, however the stream was cut into reads.
So any mixture of them yields the messages that were sent, in their order.
-/

def frameLength (buffer : Bytes) : Option Nat :=
  if 4 <= buffer.length then some (ofBigEndian (buffer.take 4)) else none

def tooLong (length maxLen : Nat) : WireError where
  kind := .invalidData
  text := s!"message too long: length {length} > max {maxLen}"

/-- Take the first message off a buffer, if it is there as a whole. -/
def decodeMessage (buffer : Bytes) (maxLen : Nat) : Except WireError (Option Message) × Bytes :=
  match frameLength buffer with
  | none => (.ok none, buffer)
  | some length =>
    if maxLen < length then (.error (tooLong length maxLen), buffer)
    else if buffer.length < 4 + length then (.ok none, buffer)
    else
      ((decodePayload ((buffer.drop 4).take length)).map some, buffer.drop (4 + length))

def holdsFrame (buffer : Bytes) (maxLen : Nat) : Except WireError Bool :=
  match frameLength buffer with
  | none => .ok false
  | some length =>
    if maxLen < length then .error (tooLong length maxLen)
    else .ok (decide (4 + length <= buffer.length))

/-- A reader over a stream.  `chunks` are the results of the reads to come; a
read of no bytes means that the stream has ended. -/
structure FramedReader where
  chunks : List Bytes
  buffer : Bytes := []
  maxMessageLength : Nat := 256 * 1024

namespace FramedReader

variable (reader : FramedReader)

def frameReady : Except WireError Bool :=
  holdsFrame reader.buffer reader.maxMessageLength

def truncated (count : Nat) : WireError where
  kind := .unexpectedEof
  text := s!"incomplete message of {count} bytes remaining at EOF"

/-- The stream ended: cleanly between two messages, or inside one. -/
def atEof {Result : Type} (clean : Result) (buffer : Bytes) : Except WireError Result :=
  if buffer.isEmpty then .ok clean else .error (truncated buffer.length)

/-- Return what an attempt on the buffer settled, or go on with a read. -/
def orRead {Result : Type} (chunks : List Bytes)
    (read : Bytes -> Except WireError Result × Bytes × List Bytes) :
    Except WireError (Option Result) × Bytes -> Except WireError Result × Bytes × List Bytes
  | (.error failure, buffer) => (.error failure, buffer, chunks)
  | (.ok (some result), buffer) => (.ok result, buffer, chunks)
  | (.ok none, buffer) => read buffer

/-- The loop of `fill_frame` and of `read_msg`: try the buffer, then read more.
Returned with the result are the buffer and the reads that are left. -/
def readUntil {Result : Type} (attempt : Bytes -> Except WireError (Option Result) × Bytes)
    (clean : Result) : List Bytes -> Bytes -> Except WireError Result × Bytes × List Bytes
  | [], buffer => orRead [] (fun rest => (atEof clean rest, rest, [])) (attempt buffer)
  | chunk :: chunks, buffer =>
    orRead (chunk :: chunks) (fun rest =>
        if chunk.isEmpty then (atEof clean rest, rest, chunks)
        else readUntil attempt clean chunks (rest ++ chunk))
      (attempt buffer)

/-- The reader after a loop over its stream. -/
def after {Result : Type} (reader : FramedReader) :
    Except WireError Result × Bytes × List Bytes -> Except WireError Result × FramedReader
  | (result, buffer, chunks) => (result, { reader with buffer := buffer, chunks := chunks })

/-- The test of `fill_frame`: a frame that is there ends the loop. -/
def tryFrame (maxLen : Nat) (buffer : Bytes) : Except WireError (Option Bool) × Bytes :=
  ((holdsFrame buffer maxLen).map (fun ready => if ready then some true else none), buffer)

/-- Wait until a whole frame is buffered.  False is a clean end of the stream. -/
def fillFrame : Except WireError Bool × FramedReader :=
  reader.after (readUntil (tryFrame reader.maxMessageLength) false reader.chunks reader.buffer)

/-- The test of `read_msg`: a message that is there ends the loop. -/
def tryMessage (maxLen : Nat) (buffer : Bytes) : Except WireError (Option (Option Message)) × Bytes :=
  let decoded := decodeMessage buffer maxLen
  (decoded.1.map (Option.map some), decoded.2)

/-- Read the next message.  None is a clean end of the stream. -/
def readMsg : Except WireError (Option Message) × FramedReader :=
  reader.after (readUntil (tryMessage reader.maxMessageLength) none reader.chunks reader.buffer)

/-- The numbers and the data of a frame that is a block. -/
def pieceIn (length : Nat) (frame : Bytes) : Option (UInt32 × UInt32 × Bytes) :=
  if length < 9 || frame.head? != some piece.toU8 then none
  else
    some (.ofNat (ofBigEndian ((frame.drop 1).take 4)),
      .ofNat (ofBigEndian ((frame.drop 5).take 4)), frame.drop 9)

def bufferedPiece : Option (UInt32 × UInt32 × Bytes) :=
  match reader.frameReady with
  | .ok true =>
    (frameLength reader.buffer).bind (fun length =>
      pieceIn length ((reader.buffer.drop 4).take length))
  | _ => none

def consumeFrame : FramedReader :=
  match frameLength reader.buffer with
  | none => reader
  | some length => { reader with buffer := reader.buffer.drop (4 + length) }

def takeBuffered : Except WireError (Option Message) × FramedReader :=
  let decoded := decodeMessage reader.buffer reader.maxMessageLength
  (decoded.1, { reader with buffer := decoded.2 })

/-- The block in the buffered frame is handed out, then the frame is dropped. -/
def takePiece : Except WireError (Option Message) × FramedReader :=
  match reader.bufferedPiece with
  | some (index, start, block) => (.ok (some (.piece index start block)), reader.consumeFrame)
  | none => (.ok none, reader)

def readFast : Except WireError (Option Message) × FramedReader :=
  match reader.fillFrame with
  | (.error failure, reader) => (.error failure, reader)
  | (.ok false, reader) => (.ok none, reader)
  | (.ok true, reader) =>
    if reader.bufferedPiece.isSome then reader.takePiece else reader.takeBuffered

inductive Call where
  | readMsg
  | readFast
  | fillFrame
  | takePiece
  | takeBuffered

/-- The calls that wait for a message. -/
def Call.reads : Call -> Bool
  | .readMsg | .readFast => true
  | .fillFrame | .takePiece | .takeBuffered => false

def call : Call -> Except WireError (Option Message) × FramedReader
  | .readMsg => reader.readMsg
  | .readFast => reader.readFast
  | .fillFrame => (reader.fillFrame.1.map (fun _ => none), reader.fillFrame.2)
  | .takePiece => reader.takePiece
  | .takeBuffered => reader.takeBuffered

def calls (reader : FramedReader) : List Call -> Except WireError (List Message) × FramedReader
  | [] => (.ok [], reader)
  | next :: rest =>
    match reader.call next with
    | (.error failure, reader) => (.error failure, reader)
    | (.ok yielded, reader) =>
      ((reader.calls rest).1.map (yielded.toList ++ ·), (reader.calls rest).2)

end FramedReader

/-! ## Frames of encoded messages -/

theorem Message.encode_eq (message : Message) :
    message.encode = putU32 (.ofNat message.payloadLen) ++ message.body := by
  rw [encode]
  split
  next empty =>
    have none : message.body = [] := eq_nil_of_length_eq_zero (message.length_body.trans empty)
    rw [none]
  · rfl

theorem Message.length_encode (message : Message) : message.encode.length = 4 + message.payloadLen := by
  rw [encode_eq, length_append, length_putU32, length_body]

theorem ofBigEndian_putU32 {value : Nat} (small : value < 2 ^ 32) :
    ofBigEndian (putU32 (.ofNat value)) = value := by
  have kept : (UInt32.ofNat value).toNat = value := UInt32.toNat_ofNat_of_lt' small
  rw [putU32, ofBigEndian_bigEndian, kept]
  exact Nat.mod_eq_of_lt small

/-- A message that a reader with this maximum takes, and whose length fits its
four bytes. -/
def Message.Fits (maxLen : Nat) (message : Message) : Prop :=
  message.payloadLen <= maxLen /\ message.payloadLen < 2 ^ 32

instance (maxLen : Nat) (message : Message) : Decidable (message.Fits maxLen) :=
  inferInstanceAs (Decidable (_ /\ _))

/-- The numbers and the data of a block. -/
def Message.asPiece : Message -> Option (UInt32 × UInt32 × Bytes)
  | .piece index start block => some (index, start, block)
  | .keepalive | .choke | .unchoke | .interested | .notInterested | .have _ | .bitfield _
  | .request .. | .cancel .. | .port _ | .suggest _ | .haveAll | .haveNone | .reject ..
  | .allowedFast _ | .extended .. | .hashRequest _ | .hashes .. | .hashReject _ => none

variable {message : Message}

theorem Message.eq_piece_of_asPiece {index start : UInt32} {block : Bytes}
    (known : message.asPiece = some (index, start, block)) : message = .piece index start block := by
  cases message <;> cases known
  rfl

section
variable {message : Message} {maxLen : Nat} {buffer more rest : Bytes} (fits : message.Fits maxLen)
  (front : buffer ++ more = message.encode ++ rest)
include fits front

theorem frameLength_of_front (long : 4 <= buffer.length) :
    frameLength buffer = some message.payloadLen := by
  have same : (buffer ++ more).take 4 = buffer.take 4 := take_append_of_le_length long
  have head : buffer.take 4 = putU32 (.ofNat message.payloadLen) := by
    rw [<- same, front, encode_eq, append_assoc, take_left' (length_putU32 _)]
  rw [frameLength, if_pos long, head, ofBigEndian_putU32 fits.2]

theorem holdsFrame_of_front :
    holdsFrame buffer maxLen = .ok (decide (message.encode.length <= buffer.length)) := by
  rw [holdsFrame, length_encode]
  by_cases long : 4 <= buffer.length
  case pos =>
    rw [frameLength_of_front fits front long]
    exact if_neg (Nat.not_lt.mpr fits.1)
  case neg =>
    have missing : ¬ 4 + message.payloadLen <= buffer.length := by omega
    rw [frameLength, if_neg long, decide_eq_false missing]

omit fits in
theorem eq_encode_append (whole : message.encode.length <= buffer.length) :
    buffer = message.encode ++ buffer.drop message.encode.length /\
    buffer.drop message.encode.length ++ more = rest := by
  have same : (buffer ++ more).take message.encode.length = buffer.take message.encode.length :=
    take_append_of_le_length whole
  have head : buffer.take message.encode.length = message.encode := by rw [<- same, front, take_left]
  have split : buffer = message.encode ++ buffer.drop message.encode.length := by
    conv_lhs => rw [<- take_append_drop message.encode.length buffer, head]
  refine ⟨split, ?_⟩
  rw [split, append_assoc] at front
  exact append_cancel_left front

theorem decodeMessage_of_short (short : buffer.length < message.encode.length) :
    decodeMessage buffer maxLen = (.ok none, buffer) := by
  rw [length_encode] at short
  rw [decodeMessage]
  by_cases long : 4 <= buffer.length
  case pos =>
    rw [frameLength_of_front fits front long]
    dsimp only
    rw [if_neg (Nat.not_lt.mpr fits.1), if_pos short]
  case neg => rw [frameLength, if_neg long]

omit fits front in
theorem frame_encode (message : Message) (rest : Bytes) :
    ((message.encode ++ rest).drop 4).take message.payloadLen = message.body := by
  rw [encode_eq, append_assoc, drop_left' (length_putU32 _), take_left' message.length_body]

omit front in
theorem decodeMessage_encode (rest : Bytes) :
    decodeMessage (message.encode ++ rest) maxLen = (.ok (some message), rest) := by
  have length := message.length_encode
  have total : (message.encode ++ rest).length = message.encode.length + rest.length :=
    length_append
  have known : frameLength (message.encode ++ rest) = some message.payloadLen :=
    frameLength_of_front fits (append_nil _) (by omega)
  rw [decodeMessage, known]
  dsimp only
  rw [if_neg (Nat.not_lt.mpr fits.1), if_neg (by omega), frame_encode, decodePayload_body, <- length,
    drop_left]
  rfl

theorem decodeMessage_front (whole : message.encode.length <= buffer.length) :
    decodeMessage buffer maxLen = (.ok (some message), buffer.drop message.encode.length) := by
  conv_lhs => rw [(eq_encode_append front whole).1]
  exact decodeMessage_encode fits _

end

/-! ## The loop over the reads -/

namespace FramedReader

/-- A loop that waits for a number of bytes ends when they are there, wherever
the reads cut the stream.  `rest` is what the attempt leaves in the buffer. -/
theorem readUntil_eq {Result : Type}
    {attempt : Bytes -> Except WireError (Option Result) × Bytes} {result : Result}
    {need : Nat} {rest : Bytes -> Bytes} {stream : Bytes} (clean : Result)
    (waits : ∀ buffer more : Bytes, buffer ++ more = stream -> buffer.length < need ->
      attempt buffer = (.ok none, buffer))
    (settles : ∀ buffer more : Bytes, buffer ++ more = stream -> need <= buffer.length ->
      attempt buffer = (.ok (some result), rest buffer))
    (enough : need <= stream.length) (chunks : List Bytes) (buffer : Bytes)
    (split : buffer ++ chunks.flatten = stream)
    (nonempty : ∀ chunk ∈ chunks, chunk ≠ []) :
    Exists fun filled : Bytes => Exists fun left : List Bytes =>
    readUntil attempt clean chunks buffer = (.ok result, rest filled, left) /\
      need <= filled.length /\ filled ++ left.flatten = stream /\ ∀ chunk ∈ left, chunk ≠ [] := by
  induction chunks generalizing buffer with
  | nil =>
    have whole : buffer = stream := by rw [<- split, flatten_nil, append_nil]
    have there : need <= buffer.length := by rw [whole]; exact enough
    refine ⟨buffer, [], ?_, there, split, nonempty⟩
    rw [readUntil, settles buffer _ split there]
    rfl
  | cons chunk chunks ih =>
    by_cases there : need <= buffer.length
    case pos =>
      refine ⟨buffer, chunk :: chunks, ?_, there, split, nonempty⟩
      rw [readUntil, settles buffer _ split there]
      rfl
    case neg =>
      have read : chunk.isEmpty = false :=
        isEmpty_eq_false_iff.mpr (nonempty chunk mem_cons_self)
      rw [readUntil, waits buffer _ split (Nat.lt_of_not_le there)]
      simp only [orRead, read, Bool.false_eq_true, if_false]
      apply ih
      case split => rw [append_assoc, <- flatten_cons, split]
      case nonempty => exact fun chunk within => nonempty chunk (mem_cons_of_mem _ within)

/-- What is still to be taken from the reader: the messages whose encodings are
the buffer and the reads to come. -/
structure Holds (reader : FramedReader) (messages : List Message) : Prop where
  stream : reader.buffer ++ reader.chunks.flatten = (messages.map encode).flatten
  nonempty : ∀ chunk : Bytes, chunk ∈ reader.chunks -> chunk ≠ []
  fits : ∀ message : Message, message ∈ messages -> message.Fits reader.maxMessageLength

section
variable {reader : FramedReader} {message : Message} {messages : List Message}

theorem Holds.ended (holds : reader.Holds []) : reader.buffer = [] /\ reader.chunks = [] := by
  have none := append_eq_nil_iff.mp holds.stream
  refine ⟨none.1, eq_nil_iff_forall_not_mem.mpr ?_⟩
  intro chunk within
  exact holds.nonempty chunk within (flatten_eq_nil_iff.mp none.2 chunk within)

theorem fillFrame_nil (holds : reader.Holds []) : reader.fillFrame = (.ok false, reader) := by
  rcases reader with ⟨_, _, _⟩
  rcases holds.ended with ⟨empty, done⟩
  subst empty done
  rfl

theorem readMsg_nil (holds : reader.Holds []) : reader.readMsg = (.ok none, reader) := by
  rcases reader with ⟨_, _, _⟩
  rcases holds.ended with ⟨empty, done⟩
  subst empty done
  rfl

section
variable (holds : reader.Holds (message :: messages))
include holds

theorem Holds.front :
    reader.buffer ++ reader.chunks.flatten = message.encode ++ (messages.map encode).flatten :=
  holds.stream

theorem Holds.length : message.encode.length <= (reader.buffer ++ reader.chunks.flatten).length := by
  rw [holds.front, length_append]
  exact Nat.le_add_right _ _

theorem Holds.head_fits : message.Fits reader.maxMessageLength :=
  holds.fits message mem_cons_self

theorem Holds.drop {buffer : Bytes} {chunks : List Bytes}
    (split : buffer ++ chunks.flatten = reader.buffer ++ reader.chunks.flatten)
    (nonempty : ∀ chunk ∈ chunks, chunk ≠ [])
    (whole : message.encode.length <= buffer.length) : Holds
      { reader with buffer := buffer.drop message.encode.length, chunks := chunks } messages where
  stream := (eq_encode_append (split.trans holds.front) whole).2
  nonempty := nonempty
  fits := fun message within => holds.fits message (mem_cons_of_mem _ within)

theorem fillFrame_cons : Exists fun filled : FramedReader => reader.fillFrame = (.ok true, filled) /\
    filled.Holds (message :: messages) /\ message.encode.length <= filled.buffer.length := by
  have ready : ∀ buffer more : Bytes, buffer ++ more = reader.buffer ++ reader.chunks.flatten ->
        holdsFrame buffer reader.maxMessageLength = .ok (decide (message.encode.length <= buffer.length)) :=
    fun buffer more split => holdsFrame_of_front holds.head_fits (split.trans holds.front)
  have waits : ∀ buffer more : Bytes, buffer ++ more = reader.buffer ++ reader.chunks.flatten ->
        buffer.length < message.encode.length ->
          tryFrame reader.maxMessageLength buffer = (.ok none, buffer) := by
    intro buffer more split short
    rw [tryFrame, ready buffer more split, decide_eq_false (Nat.not_le.mpr short)]
    rfl
  have settles : ∀ buffer more : Bytes, buffer ++ more = reader.buffer ++ reader.chunks.flatten ->
        message.encode.length <= buffer.length ->
          tryFrame reader.maxMessageLength buffer = (.ok (some true), id buffer) := by
    intro buffer more split whole
    rw [tryFrame, ready buffer more split, decide_eq_true whole]
    rfl
  rcases readUntil_eq false waits settles holds.length reader.chunks reader.buffer rfl
    holds.nonempty with ⟨buffer, chunks, result, whole, split, nonempty⟩
  refine ⟨{ reader with buffer := buffer, chunks := chunks }, ?_, ?_, whole⟩
  · rw [fillFrame, result]
    rfl
  · exact ⟨split.trans holds.stream, nonempty, holds.fits⟩

theorem readMsg_cons : Exists fun left : FramedReader =>
    reader.readMsg = (.ok (some message), left) /\ left.Holds messages := by
  have waits : ∀ buffer more : Bytes, buffer ++ more = reader.buffer ++ reader.chunks.flatten ->
        buffer.length < message.encode.length ->
          tryMessage reader.maxMessageLength buffer = (.ok none, buffer) := by
    intro buffer more split short
    rw [tryMessage, decodeMessage_of_short holds.head_fits (split.trans holds.front) short]
    rfl
  have settles : ∀ buffer more : Bytes, buffer ++ more = reader.buffer ++ reader.chunks.flatten ->
        message.encode.length <= buffer.length -> tryMessage reader.maxMessageLength buffer =
            (.ok (some (some message)), buffer.drop message.encode.length) := by
    intro buffer more split whole
    rw [tryMessage, decodeMessage_front holds.head_fits (split.trans holds.front) whole]
    rfl
  rcases readUntil_eq none waits settles holds.length reader.chunks reader.buffer rfl
    holds.nonempty with ⟨buffer, chunks, result, whole, split, nonempty⟩
  refine ⟨{ reader with buffer := buffer.drop message.encode.length, chunks := chunks }, ?_,
    holds.drop split nonempty whole⟩
  rw [readMsg, result]
  rfl

end

/-! ## One call -/

theorem pieceIn_cons {length : Nat} (long : 9 <= length) (fields : Bytes) :
    pieceIn length (piece.toU8 :: fields) =
    some ((getU32 fields).1, (getU32 (getU32 fields).2).1, (getU32 (getU32 fields).2).2) := by
  have block : ¬ (decide (length < 9) || (piece.toU8 :: fields).head? != some piece.toU8) = true := by
    rw [decide_eq_false (Nat.not_lt.mpr long)]
    exact Bool.false_ne_true
  have data : (piece.toU8 :: fields).drop 9 = (fields.drop 4).drop 4 := by
    rw [drop_drop]
    rfl
  rw [pieceIn, if_neg block, data]
  rfl

theorem pieceIn_body (message : Message) : pieceIn message.payloadLen message.body = message.asPiece := by
  cases message
  case piece =>
    rw [body, payloadLen, pieceIn_cons (by omega), append_assoc, getU32_putU32, getU32_putU32]
    rfl
  case keepalive => rfl
  all_goals exact if_pos (Bool.or_eq_true_iff.mpr (Or.inr rfl))

section
variable (holds : reader.Holds (message :: messages))
include holds

theorem bufferedPiece_of_short
    (short : reader.buffer.length < message.encode.length) : reader.bufferedPiece = none := by
  rw [bufferedPiece, frameReady, holdsFrame_of_front holds.head_fits holds.front,
    decide_eq_false (Nat.not_le.mpr short)]

variable (whole : message.encode.length <= reader.buffer.length)
include whole

theorem bufferedPiece_cons : reader.bufferedPiece = message.asPiece := by
  have long : 4 <= reader.buffer.length := by
    rw [message.length_encode] at whole
    omega
  have frame : (reader.buffer.drop 4).take message.payloadLen = message.body := by
    rw [(eq_encode_append holds.front whole).1, frame_encode]
  rw [bufferedPiece, frameReady, holdsFrame_of_front holds.head_fits holds.front,
    decide_eq_true whole, frameLength_of_front holds.head_fits holds.front long]
  exact (congrArg (pieceIn _) frame).trans (pieceIn_body message)

theorem consumeFrame_cons : reader.consumeFrame =
      { reader with buffer := reader.buffer.drop message.encode.length } := by
  have length := message.length_encode
  rw [consumeFrame, frameLength_of_front holds.head_fits holds.front (by omega), length]

theorem Holds.consume :
    Holds { reader with buffer := reader.buffer.drop message.encode.length } messages :=
  holds.drop rfl holds.nonempty whole

theorem takeBuffered_cons : reader.takeBuffered =
      (.ok (some message), { reader with buffer := reader.buffer.drop message.encode.length }) := by
  rw [takeBuffered, decodeMessage_front holds.head_fits holds.front whole]

/-- The fast path hands out the block that decoding would. -/
theorem takePiece_cons (block : message.asPiece.isSome = true) : reader.takePiece =
      (.ok (some message), { reader with buffer := reader.buffer.drop message.encode.length }) := by
  have buffered := bufferedPiece_cons holds whole
  rcases isSome_iff_exists.mp block with ⟨⟨_, _, _⟩, known⟩
  rw [takePiece, buffered, known, consumeFrame_cons holds whole]
  exact congrArg (fun message => (Except.ok (some message), _)) (eq_piece_of_asPiece known).symm

end

/-- A call yields at most one message, and that is the first one. -/
def Yields (messages : List Message) (outcome : Except WireError (Option Message) × FramedReader) : Prop :=
  Exists fun yielded : Option Message => Exists fun left : List Message =>
    outcome.1 = .ok yielded /\ yielded.toList ++ left = messages /\ outcome.2.Holds left

theorem Holds.yields_none (holds : reader.Holds messages) : Yields messages (.ok none, reader) :=
  ⟨none, messages, rfl, rfl, holds⟩

theorem Holds.yields_head {left : FramedReader} (holds : left.Holds messages) :
    Yields (message :: messages) (.ok (some message), left) :=
  ⟨some message, messages, rfl, rfl, holds⟩

/-- The first message was read, or there is none left. -/
def Reads (messages : List Message) (outcome : Except WireError (Option Message) × FramedReader) : Prop :=
  outcome.1 = .ok messages.head? /\ outcome.2.Holds messages.tail

theorem Reads.yields {outcome : Except WireError (Option Message) × FramedReader}
    (reads : Reads messages outcome) : Yields messages outcome :=
  ⟨messages.head?, messages.tail, reads.1, by cases messages <;> rfl, reads.2⟩

theorem reads_readMsg (holds : reader.Holds messages) : Reads messages reader.readMsg := by
  cases messages with
  | nil =>
    rw [readMsg_nil holds]
    exact ⟨rfl, holds⟩
  | cons =>
    rcases readMsg_cons holds with ⟨_, result, kept⟩
    rw [result]
    exact ⟨rfl, kept⟩

theorem yields_fillFrame (holds : reader.Holds messages) : Yields messages (reader.call .fillFrame) := by
  rw [call]
  cases messages with
  | nil =>
    rw [fillFrame_nil holds]
    exact holds.yields_none
  | cons =>
    rcases fillFrame_cons holds with ⟨_, result, kept, _⟩
    rw [result]
    exact kept.yields_none

theorem yields_takeBuffered (holds : reader.Holds messages) : Yields messages reader.takeBuffered := by
  cases messages with
  | nil =>
    have none : reader.takeBuffered = (.ok none, reader) := by
      rcases reader with ⟨_, _, _⟩
      rcases holds.ended with ⟨empty, _⟩
      subst empty
      rfl
    rw [none]
    exact holds.yields_none
  | cons message =>
    by_cases whole : message.encode.length <= reader.buffer.length
    case pos =>
      rw [takeBuffered_cons holds whole]
      exact (holds.consume whole).yields_head
    case neg =>
      rw [takeBuffered, decodeMessage_of_short holds.head_fits holds.front (Nat.lt_of_not_le whole)]
      exact holds.yields_none

theorem takePiece_none (other : reader.bufferedPiece = none) : reader.takePiece = (.ok none, reader) := by
  rw [takePiece, other]

variable (holds : reader.Holds messages)
include holds

theorem yields_takePiece : Yields messages reader.takePiece := by
  cases messages with
  | nil =>
    have none : reader.bufferedPiece = none := by
      rcases reader with ⟨_, _, _⟩
      rcases holds.ended with ⟨empty, _⟩
      subst empty
      rfl
    rw [takePiece_none none]
    exact holds.yields_none
  | cons message =>
    by_cases whole : message.encode.length <= reader.buffer.length
    case neg =>
      rw [takePiece_none (bufferedPiece_of_short holds (Nat.lt_of_not_le whole))]
      exact holds.yields_none
    case pos =>
      cases block : message.asPiece.isSome with
      | true =>
        rw [takePiece_cons holds whole block]
        exact (holds.consume whole).yields_head
      | false =>
        have other := (bufferedPiece_cons holds whole).trans
          (not_isSome_iff_eq_none.mp (by rw [block]; exact Bool.false_ne_true))
        rw [takePiece_none other]
        exact holds.yields_none

theorem reads_readFast : Reads messages reader.readFast := by
  rw [readFast]
  cases messages with
  | nil =>
    rw [fillFrame_nil holds]
    exact ⟨rfl, holds⟩
  | cons =>
    rcases fillFrame_cons holds with ⟨_, result, kept, whole⟩
    rw [result]
    dsimp only
    rw [bufferedPiece_cons kept whole]
    split
    next block =>
      rw [takePiece_cons kept whole block]
      exact ⟨rfl, kept.consume whole⟩
    · rw [takeBuffered_cons kept whole]
      exact ⟨rfl, kept.consume whole⟩

theorem reads_call {next : Call} (reads : next.reads = true) : Reads messages (reader.call next) := by
  cases next with
  | readMsg => exact reads_readMsg holds
  | readFast => exact reads_readFast holds
  | fillFrame | takePiece | takeBuffered => cases reads

theorem yields_call (next : Call) : Yields messages (reader.call next) := by
  cases next with
  | readMsg => exact (reads_readMsg holds).yields
  | readFast => exact (reads_readFast holds).yields
  | fillFrame => exact yields_fillFrame holds
  | takePiece => exact yields_takePiece holds
  | takeBuffered => exact yields_takeBuffered holds

end

theorem calls_cons {reader : FramedReader} {next : Call} {rest : List Call}
    {yielded : Option Message} {taken : List Message} (first : (reader.call next).1 = .ok yielded)
    (others : ((reader.call next).2.calls rest).1 = .ok taken) : (reader.calls (next :: rest)).1 = .ok
    (yielded.toList ++ taken) /\ (reader.calls (next :: rest)).2 = ((reader.call next).2.calls rest).2 := by
  rw [calls]
  rcases outcome : reader.call next with ⟨_, _⟩
  rw [outcome] at first others
  cases first
  dsimp only at others ⊢
  rw [others]
  exact ⟨rfl, rfl⟩

theorem Holds.calls {reader : FramedReader} {messages : List Message}
    (holds : reader.Holds messages) (sequence : List Call) :
    Exists fun taken : List Message => Exists fun left : List Message =>
    (reader.calls sequence).1 = .ok taken /\ taken ++ left = messages /\
      (reader.calls sequence).2.Holds left /\
        min (sequence.countP Call.reads) messages.length <= taken.length := by
  induction sequence generalizing reader messages with
  | nil => exact ⟨[], messages, rfl, rfl, holds, Nat.min_le_left _ _⟩
  | cons next rest ih =>
    rcases yields_call holds next with ⟨yielded, left, first, split, kept⟩
    rcases ih kept with ⟨taken, remaining, others, parts, last, _⟩
    have both := calls_cons first others
    refine ⟨yielded.toList ++ taken, remaining, both.1, ?_, ?_, ?_⟩
    · rw [append_assoc, parts, split]
    · rw [both.2]
      exact last
    · -- A call that waits for a message yields one as long as there is one.
      have total : messages.length = yielded.toList.length + left.length := by rw [<- split, length_append]
      rw [countP_cons, length_append]
      cases reads : next.reads with
      | false =>
        rw [if_neg Bool.false_ne_true]
        omega
      | true =>
        have head : yielded = messages.head? :=
          Except.ok.inj (first.symm.trans (reads_call holds reads).1)
        cases messages with
        | nil => exact (Nat.min_le_right _ _).trans (Nat.zero_le _)
        | cons =>
          rw [head] at total ⊢
          simp only [head?_cons, toList_some, length_singleton] at total ⊢
          rw [if_pos trivial]
          omega

def withMaxLength (chunks : List Bytes) (maxLen : Nat) : FramedReader where
  chunks := chunks
  maxMessageLength := maxLen

/-- Messages that the reader takes, and whose lengths fit four bytes, are yielded
in order by any mixture of the two paths, however their encodings are cut.  As
many calls that wait for a message as there are messages yield them all. -/
theorem calls_withMaxLength (messages : List Message) (chunks : List Bytes) (maxLen : Nat)
    (split : chunks.flatten = (messages.map encode).flatten)
    (nonempty : ∀ chunk : Bytes, chunk ∈ chunks -> chunk ≠ [])
    (fits : ∀ message : Message, message ∈ messages -> message.Fits maxLen)
    (sequence : List Call) : Exists fun taken : List Message =>
      ((withMaxLength chunks maxLen).calls sequence).1 = .ok taken ∧ taken <+: messages ∧
        (messages.length <= sequence.countP Call.reads -> taken = messages) := by
  have holds : (withMaxLength chunks maxLen).Holds messages := ⟨split, nonempty, fits⟩
  rcases holds.calls sequence with ⟨taken, left, result, parts, _, _⟩
  refine ⟨taken, result, ⟨left, parts⟩, ?_⟩
  intro enough
  have total : taken.length + left.length = messages.length := by
    rw [<- parts, length_append]
  have empty : left = [] := eq_nil_of_length_eq_zero (by omega)
  rw [<- parts, empty, append_nil]

/-- A request and a block, each cut in its middle. -/
def requestAndPiece : List Bytes :=
  [[0, 0, 0, 13, 6, 0, 0], [0, 1, 0, 0, 0, 2, 0, 0, 0, 3, 0, 0, 0, 10, 7, 0], [0, 0, 1, 0, 0, 0, 2, 255]]

theorem calls_requestAndPiece : ((withMaxLength requestAndPiece 16).calls
        [.takePiece, .readMsg, .fillFrame, .takeBuffered, .readFast]).1 =
      .ok [.request 1 2 3, .piece 1 2 [255]] := by
  rcases calls_withMaxLength [.request 1 2 3, .piece 1 2 [255]] requestAndPiece 16 (by decide)
    (by decide) (by decide) [.takePiece, .readMsg, .fillFrame, .takeBuffered, .readFast] with
    ⟨taken, result, _, all⟩
  rw [result, all (by decide)]

theorem encode_of_wrapped (wrapped : message.payloadLen % 2 ^ 32 = 0) :
    message.encode = [0, 0, 0, 0] ++ message.body := by
  have zero : UInt32.ofNat message.payloadLen = 0 := by
    apply UInt32.toNat.inj
    rw [UInt32.toNat_ofNat', wrapped]
    rfl
  rw [encode_eq, zero]
  rfl

theorem readMsg_of_wrapped (wrapped : message.payloadLen % 2 ^ 32 = 0)
    (maxLen : Nat) : (withMaxLength [message.encode] maxLen).readMsg =
      (.ok (some .keepalive), { withMaxLength [] maxLen with buffer := message.body }) := by
  rw [encode_of_wrapped wrapped]
  have stopped : readUntil (tryMessage maxLen) none [] ([0, 0, 0, 0] ++ message.body) =
      (.ok (some .keepalive), message.body, []) := by
    rfl
  have started : readUntil (tryMessage maxLen) none [[0, 0, 0, 0] ++ message.body] [] =
      (.ok (some .keepalive), message.body, []) := stopped
  exact congrArg (after (withMaxLength [[0, 0, 0, 0] ++ message.body] maxLen)) started

/-- A bitfield of four gibibytes less one byte. -/
def oversizedBitfield : Message :=
  .bitfield (List.replicate (2 ^ 32 - 1) 0)

theorem payloadLen_oversizedBitfield : oversizedBitfield.payloadLen = 2 ^ 32 := by
  rw [oversizedBitfield, payloadLen]
  norm_num

/-- A reader whose maximum admits the bitfield yields a keepalive for it. -/
theorem oversized_bitfield_reads_as_keepalive : oversizedBitfield.payloadLen <= 2 ^ 32 ∧
      ((withMaxLength [oversizedBitfield.encode] (2 ^ 32)).calls [.readMsg]).1 = .ok [.keepalive] ∧
      oversizedBitfield ≠ .keepalive := by
  have wrapped : oversizedBitfield.payloadLen % 2 ^ 32 = 0 := by
    rw [payloadLen_oversizedBitfield, Nat.mod_self]
  refine ⟨payloadLen_oversizedBitfield.le, ?_, Message.noConfusion⟩
  rw [calls, call, readMsg_of_wrapped wrapped]
  rfl

end FramedReader
end TorrentPlayer.Wire
