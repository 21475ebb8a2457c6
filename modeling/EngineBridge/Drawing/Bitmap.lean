import EngineBridge.Drawing.Size

/-! Images of four bytes a pixel, in rows from the top. -/
namespace EngineBridge

structure Pixel where
  red : UInt8
  green : UInt8
  blue : UInt8
  alpha : UInt8
  deriving DecidableEq, Repr, Inhabited

namespace Pixel

def clear : Pixel := ⟨0, 0, 0, 0⟩

@[inline] def map4 (f : UInt8 → UInt8 → UInt8 → UInt8 → UInt8) (p q r s : Pixel) : Pixel :=
  ⟨f p.red q.red r.red s.red, f p.green q.green r.green s.green, f p.blue q.blue r.blue s.blue,
    f p.alpha q.alpha r.alpha s.alpha⟩

@[inline] def read (bytes : ByteArray) (i : Nat) : Pixel :=
  ⟨bytes.get! i, bytes.get! (i + 1), bytes.get! (i + 2), bytes.get! (i + 3)⟩

@[inline] def write (bytes : ByteArray) (i : Nat) (p : Pixel) : ByteArray :=
  (((bytes.set! i p.red).set! (i + 1) p.green).set! (i + 2) p.blue).set! (i + 3) p.alpha

@[inline] def append (bytes : ByteArray) (p : Pixel) : ByteArray :=
  (((bytes.push p.red).push p.green).push p.blue).push p.alpha

@[simp] theorem size_write (bytes : ByteArray) (i : Nat) (p : Pixel) :
    (write bytes i p).size = bytes.size := by
  simp [write]

@[simp] theorem size_append (bytes : ByteArray) (p : Pixel) :
    (append bytes p).size = bytes.size + 4 := by
  simp [append, ByteArray.size_push]

def fill (bytes : ByteArray) (p : Pixel) : Nat → ByteArray
  | 0 => bytes
  | count + 1 => fill (append bytes p) p count

@[simp] theorem size_fill (bytes : ByteArray) (p : Pixel) (count : Nat) :
    (fill bytes p count).size = bytes.size + 4 * count := by
  induction count generalizing bytes with
  | zero => rfl
  | succ count ih => simp only [fill, ih, size_append]; omega

end Pixel

structure Bitmap where
  width : UInt32
  height : UInt32
  bytes : ByteArray
  size_bytes : bytes.size = 4 * (width.toNat * height.toNat)
  deriving DecidableEq

namespace Bitmap

def size (b : Bitmap) : PhysicalSize := ⟨b.width, b.height⟩

/-- Takes bytes for an image of the given size, which must be within the limit and have exactly
that many pixels. The size is judged before the bytes. -/
def ofBytes (width height : UInt32) (bytes : ByteArray) : Except Violation Bitmap := do
  PhysicalSize.checkLimit ⟨width, height⟩
  if h : bytes.size = 4 * (width.toNat * height.toNat) then .ok ⟨width, height, bytes, h⟩
  else .error (.bitmapSize width height (4 * (width.toNat * height.toNat)) bytes.size)

/-- The image in one colour. Whether a program gets it made is told by `solid?`. -/
def solid (width height : UInt32) (p : Pixel) : Bitmap where
  width := width
  height := height
  bytes := Pixel.fill .empty p (width.toNat * height.toNat)
  size_bytes := by simp

/-- The number of bytes of an image, as words of 64 bits compute it. -/
def byteCount (width height : UInt32) : UInt64 := width.toUInt64 * height.toUInt64 * 4

def solidBytes (width height : UInt32) (p : Pixel) : ByteArray :=
  Pixel.fill .empty p ((byteCount width height).toNat / 4)

/-- Makes an image in one colour of a size that is not held against the limit. There is none where
words of 64 bits do not count its bytes. -/
def solid? (width height : UInt32) (p : Pixel) : Option Bitmap :=
  let bytes := solidBytes width height p
  if h : bytes.size = 4 * (width.toNat * height.toNat) then some ⟨width, height, bytes, h⟩
  else none

@[inline] def offset (width x y : Nat) : Nat := 4 * (y * width + x)

def pixel? (b : Bitmap) (x y : Nat) : Option Pixel :=
  if x < b.width.toNat ∧ y < b.height.toNat then
    some (Pixel.read b.bytes (offset b.width.toNat x y))
  else none

@[specialize] def paintRow (color : Nat → Pixel) (width y : Nat) (bytes : ByteArray) (x : Nat) :
    Nat → ByteArray
  | 0 => bytes
  | count + 1 =>
    paintRow color width y (Pixel.write bytes (offset width x y) (color x)) (x + 1) count

@[specialize] def paintRows (color : Nat → Nat → Pixel) (width x columns : Nat)
    (bytes : ByteArray) (y : Nat) : Nat → ByteArray
  | 0 => bytes
  | count + 1 =>
    paintRows color width x columns (paintRow (color y) width y bytes x columns) (y + 1) count

theorem size_paintRow (color : Nat → Pixel) (width y : Nat) (bytes : ByteArray) (x count : Nat) :
    (paintRow color width y bytes x count).size = bytes.size := by
  induction count generalizing bytes x with
  | zero => rfl
  | succ count ih => simp [paintRow, ih]

theorem size_paintRows (color : Nat → Nat → Pixel) (width x columns : Nat) (bytes : ByteArray)
    (y count : Nat) : (paintRows color width x columns bytes y count).size = bytes.size := by
  induction count generalizing bytes y with
  | zero => rfl
  | succ count ih => simp [paintRows, ih, size_paintRow]

/-- Replaces the pixels in columns `left` to `right` and rows `top` to `bottom`, ends excluded, by
those of `color`, which takes the row first. What lies outside the image is left out. -/
@[specialize] def paint (b : Bitmap) (left right top bottom : Nat) (color : Nat → Nat → Pixel) :
    Bitmap :=
  let columns := min right b.width.toNat - left
  let rows := if columns = 0 then 0 else min bottom b.height.toNat - top
  { b with
    bytes := paintRows color b.width.toNat left columns b.bytes top rows
    size_bytes := by rw [size_paintRows]; exact b.size_bytes }

end Bitmap

end EngineBridge
