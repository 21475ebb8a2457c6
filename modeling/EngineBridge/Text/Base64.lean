import EngineBridge.Bytes

/-! Base64 in the standard alphabet. Padding is required and the unused bits of the last symbol
are zero, so every run of bytes has exactly one text. -/
namespace EngineBridge.Base64

def symbol (i : UInt8) : Char :=
  if i < 26 then Char.ofNat ('A'.toNat + i.toNat)
  else if i < 52 then Char.ofNat ('a'.toNat + (i.toNat - 26))
  else if i < 62 then Char.ofNat ('0'.toNat + (i.toNat - 52))
  else if i = 62 then '+' else '/'

def value? (b : UInt8) : Option UInt8 :=
  if 65 ≤ b && b ≤ 90 then some (b - 65)
  else if 97 ≤ b && b ≤ 122 then some (b - 97 + 26)
  else if 48 ≤ b && b ≤ 57 then some (b - 48 + 52)
  else if b = 43 then some 62
  else if b = 47 then some 63
  else none

def padding : UInt8 := 61

/-- Four symbols for every three bytes; one or two bytes left at the end are padded to four. -/
def encodeInto (text : String) : List UInt8 → String
  | a :: b :: c :: rest =>
    encodeInto
      ((((text.push (symbol (a >>> 2))).push (symbol ((a &&& 3) <<< 4 ||| b >>> 4))).push
        (symbol ((b &&& 15) <<< 2 ||| c >>> 6))).push (symbol (c &&& 63)))
      rest
  | [a, b] =>
    (((text.push (symbol (a >>> 2))).push (symbol ((a &&& 3) <<< 4 ||| b >>> 4))).push
      (symbol ((b &&& 15) <<< 2))).push '='
  | [a] => (((text.push (symbol (a >>> 2))).push (symbol ((a &&& 3) <<< 4))).push '=').push '='
  | [] => text

def encode (bytes : ByteArray) : String :=
  encodeInto "" bytes.data.toList

/-- Why a text is not the base64 of anything. Offsets count the bytes of the text. -/
inductive Error where
  | invalidSymbol (byte : UInt8) (offset : Nat)
  | invalidLength (length : Nat)
  | invalidPadding
  | invalidLastSymbol (byte : UInt8) (offset : Nat)
  deriving DecidableEq, Repr

def Error.message : Error → String
  | .invalidSymbol byte offset => s!"Invalid symbol {byte}, offset {offset}."
  | .invalidLength length => s!"Invalid input length: {length}"
  | .invalidPadding => "Invalid padding"
  | .invalidLastSymbol byte offset => s!"Invalid last symbol {byte}, offset {offset}."

def read (byte : UInt8) (offset : Nat) : Except Error UInt8 :=
  match value? byte with
  | some v => .ok v
  | none => .error (.invalidSymbol byte offset)

/-- What the last group of at most four bytes holds: its symbols in order, each with its value,
and how many paddings follow them. -/
structure Tail where
  symbols : List (UInt8 × UInt8) := []
  paddings : Nat := 0

/-- Scans the last group, which starts at `start`. Padding stands at its third or fourth place and
nothing but padding follows it. -/
def scanTail (start : Nat) (tail : Tail) : List UInt8 → Except Error Tail
  | [] => .ok tail
  | byte :: rest =>
    let place := tail.symbols.length + tail.paddings
    if byte = padding then
      if place < 2 then .error (.invalidSymbol byte (start + place))
      else scanTail start { tail with paddings := tail.paddings + 1 } rest
    else if tail.paddings > 0 then .error (.invalidSymbol padding (start + tail.symbols.length))
    else do
      let v ← read byte (start + place)
      scanTail start { tail with symbols := tail.symbols ++ [(byte, v)] } rest

def closeTail (bytes : ByteArray) (start : Nat) (tail : Tail) : Except Error ByteArray :=
  if (tail.symbols.length + tail.paddings) % 4 ≠ 0 then
    if tail.symbols.length < 2 then .error (.invalidLength (start + tail.symbols.length))
    else .error .invalidPadding
  else
    match tail.symbols with
    | [(_, a), (_, b), (_, c), (_, d)] =>
      .ok (((bytes.push (a <<< 2 ||| b >>> 4)).push ((b &&& 15) <<< 4 ||| c >>> 2)).push
        ((c &&& 3) <<< 6 ||| d))
    | [(_, a), (_, b), (byte, c)] =>
      if c &&& 3 ≠ 0 then .error (.invalidLastSymbol byte (start + 2))
      else .ok ((bytes.push (a <<< 2 ||| b >>> 4)).push ((b &&& 15) <<< 4 ||| c >>> 2))
    | [(_, a), (byte, b)] =>
      if b &&& 15 ≠ 0 then .error (.invalidLastSymbol byte (start + 1))
      else .ok (bytes.push (a <<< 2 ||| b >>> 4))
    | [] => .ok bytes
    | _ => .error (.invalidLength (start + tail.symbols.length))

def decodeFrom (bytes : ByteArray) (start : Nat) : List UInt8 → Except Error ByteArray
  | a :: b :: c :: d :: e :: rest => do
    let a ← read a start
    let b ← read b (start + 1)
    let c ← read c (start + 2)
    let d ← read d (start + 3)
    decodeFrom
      (((bytes.push (a <<< 2 ||| b >>> 4)).push ((b &&& 15) <<< 4 ||| c >>> 2)).push
        ((c &&& 3) <<< 6 ||| d))
      (start + 4) (e :: rest)
  | last => do closeTail bytes start (← scanTail start {} last)

/-- A single stray byte after whole groups is reported before anything that precedes it. -/
def strayLast? (text : List UInt8) : Option Error :=
  match text.getLast? with
  | some byte =>
    if text.length % 4 = 1 && byte ≠ padding && (value? byte).isNone then
      some (.invalidSymbol byte (text.length - 1))
    else none
  | none => none

def decode (text : String) : Except Error ByteArray :=
  let bytes := text.toUTF8.data.toList
  match strayLast? bytes with
  | some error => .error error
  | none => decodeFrom .empty 0 bytes

end EngineBridge.Base64
