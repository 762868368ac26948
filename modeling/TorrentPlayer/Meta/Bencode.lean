import TorrentPlayer.Library.Decimals
import TorrentPlayer.Library.OrderedMaps

namespace TorrentPlayer.Meta

open Library

/-!
# Bencode

The tree of decoded values, the encoder and the decoder.  The decoder walks over the
input with a position; here it carries the position together with the bytes that are
still unread from there.  The recursion is bounded by fuel, and twice the length of the
input is always enough.
-/

/-- Errors of the crate.  `bencode` carries the offset at which the faulty item starts. -/
inductive Error where
  | bencode (offset : Nat) (message : String)
  | trailingBytes (unused : Nat)
  | metaInfo (message : String)
  | integerOverflow
  | unexpectedEof
deriving DecidableEq

/-- A bencode value.  The map of a dictionary is the list of its entries; the ordered map
of the decoder keeps them in increasing order of the keys (`Value.Ordered`). -/
inductive Value where
  | int (number : Int64)
  | bytes (text : List UInt8)
  | list (items : List Value)
  | dict (entries : List (List UInt8 × Value))

namespace Value

/-- The entries of every dictionary stand in strictly increasing order of their keys. -/
def Ordered : Value -> Prop
  | .int _ | .bytes _ => True
  | .list items => OrderedItems items
  | .dict entries => KeysIncreasing entries /\ OrderedEntries entries
where
  OrderedItems : List Value -> Prop
    | [] => True
    | item :: items => item.Ordered /\ OrderedItems items
  OrderedEntries : List (List UInt8 × Value) -> Prop
    | [] => True
    | (_, value) :: entries => value.Ordered /\ OrderedEntries entries

def asInt : Value -> Option Int64
  | .int number => some number
  | .bytes _ | .list _ | .dict _ => none

def asBytes : Value -> Option (List UInt8)
  | .bytes text => some text
  | .int _ | .list _ | .dict _ => none

def asList : Value -> Option (List Value)
  | .list items => some items
  | .int _ | .bytes _ | .dict _ => none

def asDict : Value -> Option (List (List UInt8 × Value))
  | .dict entries => some entries
  | .int _ | .bytes _ | .list _ => none

end Value

def signedDecimal (number : Int) : List UInt8 :=
  if number < 0 then '-'.toUInt8 :: decimal number.natAbs else decimal number.natAbs

def encodeBytes (text : List UInt8) : List UInt8 :=
  decimal text.length ++ ':'.toUInt8 :: text

def encode : Value -> List UInt8
  | .int number => 'i'.toUInt8 :: (signedDecimal number.toInt ++ ['e'.toUInt8])
  | .bytes text => encodeBytes text
  | .list items => 'l'.toUInt8 :: (encodeItems items ++ ['e'.toUInt8])
  | .dict entries => 'd'.toUInt8 :: (encodeEntries entries ++ ['e'.toUInt8])
where
  encodeItems : List Value -> List UInt8
    | [] => []
    | item :: items => encode item ++ encodeItems items
  encodeEntries : List (List UInt8 × Value) -> List UInt8
    | [] => []
    | (key, value) :: entries => encodeBytes key ++ (encode value ++ encodeEntries entries)

/-! ## Decoding -/

/-- The decoder at a position of the input, with the bytes unread from there. -/
structure Decoder where
  pos : Nat
  rest : List UInt8

namespace Decoder

/-- One past the largest `usize`. -/
def usizeBound : Nat := 2 ^ 64

/-- The digits of an integer, once its end is found. -/
def integerOf (start : Nat) (negative : Bool) (digits : List UInt8) : Except Error Int64 :=
  if digits = [] then
    .error (.bencode start "empty integer")
  else if 1 < digits.length /\ digits.head? = some '0'.toUInt8 then
    .error (.bencode start "leading zero in integer")
  else if negative = true /\ digits = ['0'.toUInt8] then
    .error (.bencode start "negative zero")
  else if negative = true then
    if numeralValue digits <= 2 ^ 63 then
      .ok (Int64.ofInt (-numeralValue digits))
    else
      .error .integerOverflow
  else if numeralValue digits < 2 ^ 63 then
    .ok (Int64.ofInt (numeralValue digits))
  else
    .error .integerOverflow

/-- The part of `parse_int` after the sign. -/
def parseDigits (start : Nat) (negative : Bool) (decoder : Decoder) : Except Error (Value × Decoder) :=
  if decoder.rest = [] then
    .error .unexpectedEof
  else
    match decoder.rest.dropWhile isDigit with
    | [] => .error (.bencode start "unterminated integer")
    | stop :: rest =>
      if stop = 'e'.toUInt8 then
        match integerOf start negative (decoder.rest.takeWhile isDigit) with
        | .error error => .error error
        | .ok number =>
          .ok (.int number, ⟨decoder.pos + (decoder.rest.takeWhile isDigit).length + 1, rest⟩)
      else
        .error (.bencode start "unterminated integer")

def parseInt (decoder : Decoder) : Except Error (Value × Decoder) :=
  match decoder.rest with
  | [] => .error .unexpectedEof
  | first :: rest =>
    if first = 'i'.toUInt8 then
      match rest with
      | [] => .error .unexpectedEof
      | sign :: body =>
        if sign = '-'.toUInt8 then
          parseDigits decoder.pos true ⟨decoder.pos + 2, body⟩
        else
          parseDigits decoder.pos false ⟨decoder.pos + 1, sign :: body⟩
    else
      .error (.bencode decoder.pos "expected 'i'")

/-- The loop of `parse_bytes` over the digits of the length, up to the colon. -/
def parseLength (start : Nat) : Bool -> Nat -> Nat -> List UInt8 -> Except Error (Nat × Decoder)
  | _, _, _, [] => .error .unexpectedEof
  | sawDigit, length, pos, byte :: rest =>
    if byte = ':'.toUInt8 then
      if sawDigit = true then
        .ok (length, ⟨pos + 1, rest⟩)
      else
        .error (.bencode start "missing string length")
    else if isDigit byte = false then
      .error (.bencode start "bad string length")
    else if sawDigit = false /\ byte = '0'.toUInt8 then
      match rest.head? with
      | none => .error .unexpectedEof
      | some next =>
        if next ≠ ':'.toUInt8 /\ isDigit next = true then
          .error (.bencode start "leading zero in string length")
        else
          parseLength start true length (pos + 1) rest
    else if length * 10 + digitValue byte < usizeBound then
      parseLength start true (length * 10 + digitValue byte) (pos + 1) rest
    else
      .error (.bencode start "string length overflow")

def parseBytes (decoder : Decoder) : Except Error (List UInt8 × Decoder) :=
  match parseLength decoder.pos false 0 decoder.pos decoder.rest with
  | .error error => .error error
  | .ok (length, decoder') =>
    if decoder'.pos + length < usizeBound then
      if length <= decoder'.rest.length then
        .ok (decoder'.rest.take length, ⟨decoder'.pos + length, decoder'.rest.drop length⟩)
      else
        .error .unexpectedEof
    else
      .error (.bencode decoder.pos "string length overflow")

def unexpectedByte (byte : UInt8) : String :=
  "unexpected byte 0x" ++ String.ofList [Nat.digitChar (byte.toNat / 16), Nat.digitChar (byte.toNat % 16)]

/-- How the decoder takes an entry of a dictionary into the entries before it. -/
abbrev Collect := List (List UInt8 × Value) -> List UInt8 -> Value -> List (List UInt8 × Value)

mutual

/-- The recursive descent.  The fuel bounds the nesting and the number of items. -/
def parseValue (collect : Collect) : Nat -> Decoder -> Except Error (Value × Decoder)
  | 0, _ => .error .unexpectedEof
  | fuel + 1, decoder =>
    match decoder.rest with
    | [] => .error .unexpectedEof
    | byte :: rest =>
      if byte = 'i'.toUInt8 then
        decoder.parseInt
      else if byte = 'l'.toUInt8 then
        parseList collect fuel ⟨decoder.pos + 1, rest⟩ []
      else if byte = 'd'.toUInt8 then
        parseDict collect fuel ⟨decoder.pos + 1, rest⟩ []
      else if isDigit byte = true then
        match decoder.parseBytes with
        | .error error => .error error
        | .ok (text, decoder') => .ok (.bytes text, decoder')
      else
        .error (.bencode decoder.pos (unexpectedByte byte))

/-- The loop of `parse_list`. -/
def parseList (collect : Collect) : Nat -> Decoder -> List Value -> Except Error (Value × Decoder)
  | 0, _, _ => .error .unexpectedEof
  | fuel + 1, decoder, items =>
    match decoder.rest with
    | [] => .error .unexpectedEof
    | byte :: rest =>
      if byte = 'e'.toUInt8 then
        .ok (.list items, ⟨decoder.pos + 1, rest⟩)
      else
        match parseValue collect fuel decoder with
        | .error error => .error error
        | .ok (item, decoder') => parseList collect fuel decoder' (items ++ [item])

/-- The loop of `parse_dict`. -/
def parseDict (collect : Collect) :
    Nat -> Decoder -> List (List UInt8 × Value) -> Except Error (Value × Decoder)
  | 0, _, _ => .error .unexpectedEof
  | fuel + 1, decoder, entries =>
    match decoder.rest with
    | [] => .error .unexpectedEof
    | byte :: rest =>
      if byte = 'e'.toUInt8 then
        .ok (.dict entries, ⟨decoder.pos + 1, rest⟩)
      else
        match decoder.parseBytes with
        | .error error => .error error
        | .ok (key, decoder') =>
          match parseValue collect fuel decoder' with
          | .error error => .error error
          | .ok (value, decoder'') =>
            parseDict collect fuel decoder'' (collect entries key value)

end
end Decoder

/-- One value from the start of the input, and the position after it. -/
def readValue (collect : Decoder.Collect) (data : List UInt8) : Except Error (Value × Nat) :=
  match Decoder.parseValue collect (2 * data.length + 1) ⟨0, data⟩ with
  | .error error => .error error
  | .ok (value, decoder) => .ok (value, decoder.pos)

/-- Decode one value from the start of the input; bytes after it are allowed. -/
def decodePrefix (data : List UInt8) : Except Error (Value × Nat) :=
  readValue insertEntry data

def decode (data : List UInt8) : Except Error Value :=
  match decodePrefix data with
  | .error error => .error error
  | .ok (value, consumed) =>
    if consumed = data.length then
      .ok value
    else
      .error (.trailingBytes (data.length - consumed))

/-- The same descent with the entries of each dictionary left as the input has them, in
their order and with repeated keys.  The program has no use for it; it says what the
dictionaries of an input are. -/
def transcribe (data : List UInt8) : Except Error Value :=
  match readValue (fun entries key value => entries ++ [(key, value)]) data with
  | .error error => .error error
  | .ok (value, _) => .ok value

end TorrentPlayer.Meta
