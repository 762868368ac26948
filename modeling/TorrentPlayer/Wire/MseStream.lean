import TorrentPlayer.Library.Keystreams
import TorrentPlayer.Library.Machine
import TorrentPlayer.Wire.Message

namespace TorrentPlayer.Wire

open Library Option List

/-!
# The encrypted stream

`MseStream` of `wt-wire/src/mse.rs` masks what it writes and unmasks what it
reads with the keystream of a cipher.  The inner stream may accept any front of
what is written, or nothing for the time being, and the next write may bring
other data.  The two ciphers stay aligned because the writing one goes on by the
bytes that were accepted and by no others.
-/

/-- The cipher.  A byte is an index of its table, so the table is a function. -/
structure Rc4 where
  s : UInt8 -> UInt8
  i : UInt8
  j : UInt8

namespace Rc4

/-- One round of `apply`: the next byte of the keystream. -/
def next (rc4 : Rc4) : UInt8 × Rc4 :=
  let i := rc4.i + 1
  let j := rc4.j + rc4.s i
  let s := Function.update (Function.update rc4.s i (rc4.s j)) j (rc4.s i)
  (s (s i + s j), { s := s, i := i, j := j })

def apply (rc4 : Rc4) (buf : Bytes) : Bytes × Rc4 :=
  mask next rc4 buf

end Rc4

/-- Masks a text, if there is a cipher. -/
def crypt : Option Rc4 -> Bytes -> Bytes × Option Rc4
  | none, text => (text, none)
  | some rc4, text => ((rc4.apply text).1, some (rc4.apply text).2)

structure MseStream where
  decrypt : Option Rc4
  encrypt : Option Rc4
  initialReadBuf : Bytes

namespace MseStream

/-- Reads into a buffer with room for `room` bytes.  `arrived` is what the inner
stream gives, if it is asked. -/
def pollRead (stream : MseStream) (room : Nat) (arrived : Bytes) : Bytes × MseStream :=
  if stream.initialReadBuf = [] then
    let (data, decrypt) := crypt stream.decrypt arrived
    (data, { stream with decrypt := decrypt })
  else
    (stream.initialReadBuf.take room,
      { stream with initialReadBuf := stream.initialReadBuf.drop room })

/-- What the inner stream has of `buf` after a write, if it accepts `n` bytes.
Without an answer it is pending or failed. -/
def pollWrite (stream : MseStream) (buf : Bytes) (answer : Option Nat) : Bytes × MseStream :=
  match answer, stream.encrypt with
  | none, _ => ([], stream)
  | some n, none => (buf.take n, stream)
  | some n, some enc =>
    let (encrypted, next) := enc.apply buf
    (encrypted.take n, { stream with
      encrypt := some (if n = buf.length then next else (enc.apply (encrypted.take n)).2) })

end MseStream

theorem crypt_append (cipher : Option Rc4) (front back : Bytes) : crypt cipher (front ++ back) =
    ((crypt cipher front).1 ++ (crypt (crypt cipher front).2 back).1,
      (crypt (crypt cipher front).2 back).2) := by
  cases cipher with
  | none => rfl
  | some => simp [crypt, Rc4.apply, mask_append]

theorem crypt_crypt (cipher : Option Rc4) (text : Bytes) :
    crypt cipher (crypt cipher text).1 = (text, (crypt cipher text).2) := by
  cases cipher with
  | none => rfl
  | some => simp [crypt, Rc4.apply, mask_mask]

namespace MseStream

variable (stream : MseStream)

/-- On both paths the cipher goes on by the bytes that were accepted. -/
theorem pollWrite_eq (buf : Bytes) (answer : Option Nat) : stream.pollWrite buf answer =
    ((crypt stream.encrypt (buf.take (answer.getD 0))).1,
      { stream with encrypt := (crypt stream.encrypt (buf.take (answer.getD 0))).2 }) := by
  rcases stream with ⟨decrypt, encrypt, initial⟩
  cases answer with
  | none => cases encrypt <;> rfl
  | some =>
    cases encrypt with
    | none => rfl
    | some =>
      simp only [pollWrite, crypt, Rc4.apply, getD_some, take_mask, mask_mask]
      split
      next whole => rw [whole, take_length]
      · rfl

end MseStream

/-! ## A writing and a reading side -/

structure EncryptedPair where
  writer : MseStream
  reader : MseStream
  /-- The buffer that the reading side starts with. -/
  initial : Bytes
  /-- What the inner streams carry. -/
  flight : Bytes := []
  /-- The fronts of the data that were accepted, one after the other. -/
  accepted : Bytes := []
  received : Bytes := []

namespace EncryptedPair

inductive Label where
  | write (buf : Bytes) (answer : Option Nat)
  | read (room count : Nat)

def step (pair : EncryptedPair) : Label -> Option EncryptedPair
  | .write buf answer =>
    if answer.getD 0 <= buf.length then
      some { pair with
        writer := (pair.writer.pollWrite buf answer).2
        flight := pair.flight ++ (pair.writer.pollWrite buf answer).1
        accepted := pair.accepted ++ buf.take (answer.getD 0) }
    else none
  | .read room count =>
    if count <= room then
      some { pair with
        reader := (pair.reader.pollRead room (pair.flight.take count)).2
        flight := if pair.reader.initialReadBuf = [] then pair.flight.drop count else pair.flight
        received := pair.received ++ (pair.reader.pollRead room (pair.flight.take count)).1 }
    else none

/-- The keystreams start aligned, and nothing was written or read. -/
def machine : Machine EncryptedPair Label where
  init := fun pair => pair.writer.encrypt = pair.reader.decrypt /\
    pair.initial = pair.reader.initialReadBuf /\
    pair.flight = [] /\ pair.accepted = [] /\ pair.received = []
  step := step

/-- Unmasking what is under way leads to the cipher of the writing side, and to
the bytes that are still to be read. -/
structure Aligned (pair : EncryptedPair) : Prop where
  cipher : (crypt pair.reader.decrypt pair.flight).2 = pair.writer.encrypt
  bytes : pair.received ++ (pair.reader.initialReadBuf ++
    (crypt pair.reader.decrypt pair.flight).1) = pair.initial ++ pair.accepted

variable {pair after : EncryptedPair}

theorem Aligned.write (aligned : Aligned pair) {buf : Bytes} {answer : Option Nat}
    (moved : step pair (.write buf answer) = some after) : Aligned after := by
  rcases ite_none_right_eq_some.mp moved with ⟨_, ⟨⟩⟩
  have masked := crypt_crypt pair.writer.encrypt (buf.take (answer.getD 0))
  constructor
  · simp only [MseStream.pollWrite_eq, crypt_append, aligned.cipher, masked]
  simp only [MseStream.pollWrite_eq, crypt_append, aligned.cipher, masked]
  rw [<- append_assoc pair.initial, <- aligned.bytes]
  simp

theorem Aligned.read (aligned : Aligned pair) {room count : Nat}
    (moved : step pair (.read room count) = some after) : Aligned after := by
  rcases ite_none_right_eq_some.mp moved with ⟨_, ⟨⟩⟩
  by_cases done : pair.reader.initialReadBuf = []
  · have parts := crypt_append pair.reader.decrypt (pair.flight.take count) (pair.flight.drop count)
    rw [take_append_drop] at parts
    constructor
    · simp only [MseStream.pollRead, if_pos done]
      rw [<- aligned.cipher, parts]
    · simp only [MseStream.pollRead, if_pos done]
      rw [<- aligned.bytes, parts, done]
      simp
  · constructor
    · simp only [MseStream.pollRead, if_neg done]
      exact aligned.cipher
    · simp only [MseStream.pollRead, if_neg done]
      rw [<- aligned.bytes]
      simp [<- append_assoc (List.take _ _)]

/-- Whatever fronts are accepted and however the reads cut the stream, the bytes
read are the initial buffer and then the accepted fronts: always a front of
them, and all of them once nothing is left to read. -/
theorem bytes_read_in_order {labels : List Label} (run : machine.RunsTo Machine.always labels pair) :
    pair.received <+: pair.initial ++ pair.accepted ∧
      (pair.reader.initialReadBuf = [] -> pair.flight = [] ->
        pair.received = pair.initial ++ pair.accepted) := by
  have aligned : Aligned pair := by
    refine run.stateInvariant ?_ (fun _ label _ aligned _ moved => ?_)
    · rintro first ⟨same, initial, flight, accepted, received⟩
      constructor <;> cases held : first.reader.decrypt <;>
        simp [crypt, Rc4.apply, mask, same, initial, flight, accepted, received, held]
    · cases label with
      | write => exact aligned.write moved
      | read => exact aligned.read moved
  refine ⟨⟨_, aligned.bytes⟩, fun done landed => ?_⟩
  rw [<- aligned.bytes, done, landed]
  cases pair.reader.decrypt <;> simp [crypt, Rc4.apply, mask]

/-- Both sides with one cipher, and a byte that the handshake read too far. -/
def oneCipher : EncryptedPair where
  writer := { decrypt := none, encrypt := some ⟨id, 0, 0⟩, initialReadBuf := [] }
  reader := { decrypt := some ⟨id, 0, 0⟩, encrypt := none, initialReadBuf := [7] }
  initial := [7]

/-- A write is accepted in part, the rest is refused, and other data follow. -/
def retried : List Label :=
  [.write [1, 2, 3] (some 2), .write [3] none, .write [9] (some 1), .read 4 0, .read 1 1, .read 4 4]

theorem bytes_read_in_order_retried : let reached := (machine.exec oneCipher retried).getD oneCipher
    reached.received = [7, 1, 2, 9] ∧ reached.received = reached.initial ++ reached.accepted := by
  have run : machine.RunsTo Machine.always retried ((machine.exec oneCipher retried).getD oneCipher) :=
    .of_exec ⟨rfl, rfl, rfl, rfl, rfl⟩ (machine.permits_always _ _) rfl
  exact ⟨by decide +kernel, (bytes_read_in_order run).2 (by decide +kernel) (by decide +kernel)⟩

end EncryptedPair
end TorrentPlayer.Wire
