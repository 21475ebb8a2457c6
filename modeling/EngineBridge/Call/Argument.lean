import EngineBridge.Call.Message
import EngineBridge.LogLevel
import EngineBridge.Drawing.Bitmap
import EngineBridge.Number.Word

/-! Single arguments of calls and what they may be. Each reader takes the place of its argument,
so that a fault can name it. -/
namespace EngineBridge

structure Argument where
  method : String
  index : Nat

namespace Argument

def fault {α : Type} (place : Argument) (reason : ArgumentFault) : Except Violation α :=
  .error (.badArgument place.method place.index reason)

/-- A number stored as an integer that fits 64 signed bits. -/
def int (place : Argument) : Json → Except Violation Int
  | .int n => if Word.isLong n then .ok n else place.fault .notInteger
  | _ => place.fault .notInteger

def unsigned (place : Argument) (v : Json) : Except Violation UInt32 := do
  let n ← place.int v
  match Word.unsigned? n with
  | some w => return w
  | none => place.fault (.outOfRange n .unsigned32)

def signed (place : Argument) (v : Json) : Except Violation Int32 := do
  let n ← place.int v
  match Word.signed? n with
  | some w => return w
  | none => place.fault (.outOfRange n .signed32)

def text (place : Argument) : Json → Except Violation String
  | .text s => .ok s
  | _ => place.fault .notText

def level (place : Argument) (v : Json) : Except Violation LogLevel := do
  LogLevel.ofOrdinal (← place.int v)

def decoded (place : Argument) (s : String) : Except Violation ByteArray :=
  match Base64.decode s with
  | .ok bytes => .ok bytes
  | .error e => place.fault (.badEncoding e)

def bytes (place : Argument) : Json → Except Violation ByteArray
  | .text s => place.decoded s
  | _ => place.fault .notEncodedBytes

def dimension (place : Argument) (name : String) (v : Json) : Except Violation UInt32 :=
  match ((v.field? name).bind Json.asInt?).bind Word.unsigned? with
  | some w => .ok w
  | none => place.fault (.badDimension name)

def bitmap (place : Argument) (v : Json) : Except Violation Bitmap :=
  match v with
  | .object _ => do
    let width ← place.dimension "width" v
    let height ← place.dimension "height" v
    match (v.field? "data").bind Json.asText? with
    | none => place.fault .noPixelData
    | some data => Bitmap.ofBytes width height (← place.decoded data)
  | _ => place.fault .notBitmap

end Argument

def Json.ofUInt32 (n : UInt32) : Json := .int n.toNat

def Json.ofBytes (bytes : ByteArray) : Json := .text (Base64.encode bytes)

def Json.ofBitmap (b : Bitmap) : Json :=
  .object [("data", .ofBytes b.bytes), ("height", .ofUInt32 b.height), ("width", .ofUInt32 b.width)]

end EngineBridge
