import EngineBridge.Drawing.Bitmap

/-! Images as PNG files, with eight bits for each of the four channels and without compression. -/
namespace EngineBridge.Png

def word (out : ByteArray) (n : UInt32) : ByteArray :=
  (((out.push (n >>> 24).toUInt8).push (n >>> 16).toUInt8).push (n >>> 8).toUInt8).push n.toUInt8

def shortWord (out : ByteArray) (n : Nat) : ByteArray :=
  (out.push (.ofNat n)).push (.ofNat (n / 256))

def checksumBit (c : UInt32) : UInt32 :=
  if c &&& 1 = 1 then (0xEDB88320 : UInt32) ^^^ (c >>> 1) else c >>> 1

def checksumTable : Array UInt32 :=
  Array.ofFn fun i : Fin 256 => Nat.repeat checksumBit 8 (.ofNat i)

def checksum (bytes : ByteArray) (start : Nat) : UInt32 :=
  let c := bytes.foldl (fun c b =>
    checksumTable.getD ((c ^^^ b.toUInt32) &&& 0xFF).toNat 0 ^^^ (c >>> 8)) 0xFFFFFFFF start
  c ^^^ 0xFFFFFFFF

def chunk (out : ByteArray) (kind : String) (content : ByteArray) : ByteArray :=
  let out := word out (.ofNat content.size)
  let start := out.size
  let out := out ++ kind.toUTF8 ++ content
  word out (checksum out start)

/-- The two sums, modulo 65521, that close a stream of stored blocks. -/
def adler (bytes : ByteArray) : UInt32 :=
  let (a, b) := bytes.foldl (fun (a, b) (byte : UInt8) =>
    let a := (a + byte.toUInt32) % 65521
    (a, (b + a) % 65521)) ((1 : UInt32), (0 : UInt32))
  (b <<< 16) ||| a

def maxBlock : Nat := 65535

def blocks (out bytes : ByteArray) (start : Nat) : Nat → ByteArray
  | 0 => out
  | count + 1 =>
    let size := min maxBlock (bytes.size - start)
    let out := out.push (if count = 0 then 1 else 0)
    let out := shortWord (shortWord out size) (maxBlock - size)
    blocks (out ++ bytes.extract start (start + size)) bytes (start + size) count

def stored (bytes : ByteArray) : ByteArray :=
  let out := blocks ⟨#[0x78, 0x01]⟩ bytes 0 (bytes.size / maxBlock + 1)
  word out (adler bytes)

def rows (b : Bitmap) : ByteArray :=
  let stride := 4 * b.width.toNat
  b.height.toNat.fold (fun y _ out =>
    out.push 0 ++ b.bytes.extract (y * stride) ((y + 1) * stride)) .empty

def header (b : Bitmap) : ByteArray :=
  (word (word .empty b.width) b.height) ++ ⟨#[8, 6, 0, 0, 0]⟩

def encode (b : Bitmap) : ByteArray :=
  let signature : ByteArray := ⟨#[0x89, 0x50, 0x4E, 0x47, 0x0D, 0x0A, 0x1A, 0x0A]⟩
  chunk (chunk (chunk signature "IHDR" (header b)) "IDAT" (stored (rows b))) "IEND" .empty

end EngineBridge.Png
