import EngineBridge.Drawing.Canvas
import EngineBridge.Proofs.Drawing.Float

/-! Drawing that looks before it reads or writes. It stops where it would leave a buffer, take a
pixel that an image does not have, clamp a number between bounds in the wrong order, or count beyond
a word. It never has to, and draws the same as drawing that does not look. -/
namespace EngineBridge

namespace Scalar

def clamp? (x high : Float) : Option Float :=
  if (ofNat 0 : Float) ≤ high then some (clamp x high) else none

variable {n : Nat}

theorem clamp?_eq (hn : n < 2 ^ 32) (x : Float) : clamp? x (ofNat n) = some (clamp x (ofNat n)) :=
  if_pos (ofNat_zero_le hn)

theorem truncate_clamp_le (hn : n < 2 ^ 32) (x : Float) : truncate (clamp x (ofNat n)) ≤ n := by
  unfold clamp
  dsimp only
  generalize (if x < ofNat 0 then ofNat 0 else x) = y
  split
  · exact truncate_le_of_not_lt hn (not_ofNat_lt_self hn)
  · rename_i h
    exact truncate_le_of_not_lt hn h

theorem centresBefore_le (x : Float) {limit : Nat} (hlimit : limit < 2 ^ 32) :
    centresBefore x limit ≤ limit := by
  unfold centresBefore
  dsimp only
  generalize x - half = e
  split
  · exact Nat.zero_le limit
  split
  · exact Nat.le_refl limit
  rename_i habove
  have hwhole : truncate e ≤ limit :=
    truncate_le_of_not_lt hlimit fun h => habove (float_le_of_lt h)
  split
  · rename_i hbelow
    have hne : truncate e ≠ limit := fun h => habove (float_le_of_lt (h ▸ hbelow))
    omega
  · exact hwhole

theorem covered_le (start stop : Float) {limit : Nat} (hlimit : limit < 2 ^ 32) :
    (covered start stop limit).1 ≤ limit ∧ (covered start stop limit).2 ≤ limit := by
  refine ⟨centresBefore_le start hlimit, ?_⟩
  unfold covered
  dsimp only
  split
  · exact centresBefore_le stop hlimit
  · exact Nat.le_refl limit

end Scalar

namespace Pixel

def read? (bytes : ByteArray) (i : Nat) : Option Pixel :=
  if i + 4 ≤ bytes.size then some (read bytes i) else none

def write? (bytes : ByteArray) (i : Nat) (p : Pixel) : Option ByteArray :=
  if i + 4 ≤ bytes.size then some (write bytes i p) else none

end Pixel

namespace Bitmap

theorem offset_add_le {width height x y : Nat} (hx : x < width) (hy : y < height) :
    offset width x y + 4 ≤ 4 * (width * height) := by
  have hrows : (y + 1) * width ≤ height * width := Nat.mul_le_mul_right width hy
  rw [Nat.add_mul] at hrows
  rw [offset, Nat.mul_comm width]
  omega

section Sample

variable (b : Bitmap)

def readPixel? (x y : Nat) : Option Pixel :=
  if x < b.width.toNat ∧ y < b.height.toNat then
    Pixel.read? b.bytes (offset b.width.toNat x y)
  else none

theorem readPixel?_eq (x y : Nat) : b.readPixel? x y = b.pixel? x y := by
  unfold readPixel? pixel?
  split
  · rename_i h
    exact if_pos (b.size_bytes ▸ offset_add_le h.1 h.2)
  · rfl

theorem readPixel?_of_lt {x y : Nat} (hx : x < b.width.toNat) (hy : y < b.height.toNat) :
    b.readPixel? x y = some (b.pixel x y) := by
  rw [readPixel?_eq, pixel, pixel?, if_pos ⟨hx, hy⟩, Option.getD_some]

def nearest? (u : Float) (count : Nat) : Option Nat :=
  if 0 < count then some (nearest u count) else none

def between? (u : Float) (count : Nat) : Option (Between Float) :=
  if 0 < count then do
    let f ← Scalar.clamp? (u - Scalar.half) (Scalar.ofNat (count - 1))
    let first := Scalar.truncate f
    if first + 1 < 2 ^ 32 then
      some ⟨first, min (first + 1) (count - 1), f - Scalar.ofNat first⟩
    else none
  else none

def sampleNearest? (u v : Float) : Option Pixel := do
  let x ← nearest? u b.width.toNat
  let y ← nearest? v b.height.toNat
  b.readPixel? x y

def sampleBilinear? (u v : Float) : Option Pixel := do
  let x ← between? u b.width.toNat
  let y ← between? v b.height.toNat
  let topLeft ← b.readPixel? x.first y.first
  let topRight ← b.readPixel? x.second y.first
  let bottomLeft ← b.readPixel? x.first y.second
  let bottomRight ← b.readPixel? x.second y.second
  return Pixel.map4 (blend x.share y.share) topLeft topRight bottomLeft bottomRight

variable {b} {count : Nat} (hcount : 0 < count)

include hcount

theorem nearest?_eq (u : Float) : nearest? u count = some (nearest u count) := if_pos hcount

theorem nearest_lt (u : Float) : nearest u count < count :=
  Nat.lt_of_le_of_lt (Nat.min_le_right _ _) (Nat.sub_lt hcount Nat.one_pos)

theorem between_lt (hword : count < 2 ^ 32) (u : Float) :
    (between u count).first < count ∧ (between u count).second < count := by
  have hfirst : (between u count).first ≤ count - 1 := Scalar.truncate_clamp_le (by omega) _
  have hsecond : (between u count).second ≤ count - 1 := Nat.min_le_right _ _
  omega

theorem between?_eq (hword : count < 2 ^ 32) (u : Float) :
    between? u count = some (between u count) := by
  have hclamp := Scalar.clamp?_eq (Nat.lt_of_le_of_lt (Nat.sub_le count 1) hword) (u - Scalar.half)
  have hfirst : (between u count).first < count := (between_lt hcount hword u).1
  have hnext : Scalar.truncate (Scalar.clamp (u - Scalar.half)
      (Scalar.ofNat (count - 1) : Float)) + 1 < 2 ^ 32 :=
    Nat.lt_of_le_of_lt hfirst hword
  unfold between?
  rw [if_pos hcount, hclamp]
  exact if_pos hnext

end Sample

section Sample

variable {b : Bitmap} (hw : 0 < b.width.toNat) (hh : 0 < b.height.toNat)

include hw hh

theorem sampleNearest?_eq (u v : Float) : b.sampleNearest? u v = some (b.sampleNearest u v) := by
  unfold sampleNearest?
  rw [nearest?_eq hw, nearest?_eq hh]
  exact b.readPixel?_of_lt (nearest_lt hw u) (nearest_lt hh v)

theorem sampleBilinear?_eq (u v : Float) : b.sampleBilinear? u v = some (b.sampleBilinear u v) := by
  have hx := between_lt hw b.width.toNat_lt u
  have hy := between_lt hh b.height.toNat_lt v
  unfold sampleBilinear?
  rw [between?_eq hw b.width.toNat_lt, between?_eq hh b.height.toNat_lt]
  simp only [Option.bind_eq_bind, Option.bind_some, b.readPixel?_of_lt hx.1 hy.1,
    b.readPixel?_of_lt hx.2 hy.1, b.readPixel?_of_lt hx.1 hy.2, b.readPixel?_of_lt hx.2 hy.2]
  rfl

end Sample

def paintRow? (color : Nat → Option Pixel) (width y : Nat) (bytes : ByteArray) (x : Nat) :
    Nat → Option ByteArray
  | 0 => some bytes
  | count + 1 => do
    let p ← color x
    let bytes ← Pixel.write? bytes (offset width x y) p
    paintRow? color width y bytes (x + 1) count

def paintRows? (color : Nat → Nat → Option Pixel) (width x columns : Nat) (bytes : ByteArray)
    (y : Nat) : Nat → Option ByteArray
  | 0 => some bytes
  | count + 1 => do
    let bytes ← paintRow? (color y) width y bytes x columns
    paintRows? color width x columns bytes (y + 1) count

variable {width height : Nat} {bytes : ByteArray}

theorem paintRow?_eq {color : Nat → Pixel} {y : Nat} (hy : y < height)
    (hsize : bytes.size = 4 * (width * height)) {x count : Nat} (hx : x + count ≤ width) :
    paintRow? (fun x => some (color x)) width y bytes x count =
      some (paintRow color width y bytes x count) := by
  induction count generalizing bytes x with
  | zero => rfl
  | succ count ih =>
    have hfits : offset width x y + 4 ≤ bytes.size := by
      rw [hsize]
      exact offset_add_le (by omega) hy
    have hwrite : Pixel.write? bytes (offset width x y) (color x) =
        some (Pixel.write bytes (offset width x y) (color x)) := if_pos hfits
    simp only [paintRow?, Option.bind_eq_bind, Option.bind_some, hwrite]
    exact ih ((Pixel.size_write _ _ _).trans hsize) (by omega)

theorem paintRows?_eq {color : Nat → Nat → Pixel} (hsize : bytes.size = 4 * (width * height))
    {x columns : Nat} (hx : x + columns ≤ width) {y count : Nat} (hy : y + count ≤ height) :
    paintRows? (fun y x => some (color y x)) width x columns bytes y count =
      some (paintRows color width x columns bytes y count) := by
  induction count generalizing bytes y with
  | zero => rfl
  | succ count ih =>
    simp only [paintRows?, Option.bind_eq_bind,
      paintRow?_eq (show y < height by omega) hsize hx, Option.bind_some]
    exact ih ((size_paintRow _ _ _ _ _ _).trans hsize) (by omega)

theorem paintRows_no_columns (color : Nat → Nat → Pixel) (width x : Nat) (bytes : ByteArray)
    (y count : Nat) : paintRows color width x 0 bytes y count = bytes := by
  induction count generalizing y with
  | zero => rfl
  | succ count ih => exact ih (y + 1)

theorem bytes_paint_of_le (b : Bitmap) {right bottom : Nat} (hright : right ≤ b.width.toNat)
    (hbottom : bottom ≤ b.height.toNat) (left top : Nat) (color : Nat → Nat → Pixel) :
    (b.paint left right top bottom color).bytes =
      paintRows color b.width.toNat left (right - left) b.bytes top (bottom - top) := by
  unfold paint
  dsimp only
  rw [Nat.min_eq_left hright, Nat.min_eq_left hbottom]
  split
  · rename_i hnone
    rw [hnone, paintRows_no_columns, paintRows_no_columns]
  · rfl

theorem paintRows?_eq_paint (b : Bitmap) {left right top bottom : Nat} (hleft : left ≤ b.width.toNat)
    (hright : right ≤ b.width.toNat) (htop : top ≤ b.height.toNat)
    (hbottom : bottom ≤ b.height.toNat) (color : Nat → Nat → Pixel) :
    paintRows? (fun y x => some (color y x)) b.width.toNat left (right - left) b.bytes top
      (bottom - top) = some (b.paint left right top bottom color).bytes := by
  rw [b.bytes_paint_of_le hright hbottom]
  exact paintRows?_eq b.size_bytes (by omega) (by omega)

theorem pos_of_not_isEmpty {b : Bitmap} (h : b.bytes.isEmpty = false) :
    0 < b.width.toNat ∧ 0 < b.height.toNat := by
  have hsize := b.size_bytes
  rw [ByteArray.isEmpty, beq_eq_false_iff_ne] at h
  constructor
  all_goals
    refine Nat.pos_of_ne_zero fun hzero => h ?_
    rw [hsize, hzero]
    simp

end Bitmap

namespace Canvas

def shown? (b : Bitmap) (smoothing : Bool) (spot : Placement Float) (y x : Nat) : Option Pixel :=
  let u := source x spot.left spot.scaleX
  let v := source y spot.top spot.scaleY
  if smoothing then b.sampleBilinear? u v else b.sampleNearest? u v

theorem shown?_eq {b : Bitmap} (hw : 0 < b.width.toNat) (hh : 0 < b.height.toNat)
    (smoothing : Bool) (spot : Placement Float) :
    shown? b smoothing spot = fun y x => some (shown b smoothing spot y x) := by
  funext y x
  cases smoothing with
  | true => exact Bitmap.sampleBilinear?_eq hw hh _ _
  | false => exact Bitmap.sampleNearest?_eq hw hh _ _

/-- Draws an image as `draw` does, without leaving out what is beyond the surface. It stops if that
would be drawn, or if the surface ended up with more or fewer bytes. -/
def draw? (c : Canvas Float) (b : Bitmap) (x y : Float) : Option (Canvas Float) :=
  let t := c.context.transform
  if b.bytes.isEmpty || c.surface.bytes.isEmpty || t.scaleX ≤ Scalar.ofNat 0
      || t.scaleY ≤ Scalar.ofNat 0 then some c
  else do
    let spot := placement t b x y
    let (left, right) := Scalar.covered spot.left spot.right c.surface.width.toNat
    let (top, bottom) := Scalar.covered spot.top spot.bottom c.surface.height.toNat
    let bytes ← Bitmap.paintRows? (shown? b c.context.smoothing spot) c.surface.width.toNat left
      (right - left) c.surface.bytes top (bottom - top)
    if h : bytes.size = 4 * (c.surface.width.toNat * c.surface.height.toNat) then
      some { c with surface := { c.surface with bytes := bytes, size_bytes := h } }
    else none

theorem draw?_eq (c : Canvas Float) (b : Bitmap) (x y : Float) :
    c.draw? b x y = some (c.draw b x y) := by
  unfold draw? draw
  dsimp only
  split
  · rfl
  rename_i hdraws
  have hsource : b.bytes.isEmpty = false := by
    cases hempty : b.bytes.isEmpty with
    | true => exact absurd (by simp [hempty]) hdraws
    | false => rfl
  obtain ⟨hw, hh⟩ := Bitmap.pos_of_not_isEmpty hsource
  generalize placement c.context.transform b x y = spot
  have hcolumns := Scalar.covered_le spot.left spot.right c.surface.width.toNat_lt
  have hrows := Scalar.covered_le spot.top spot.bottom c.surface.height.toNat_lt
  have hpaint := c.surface.paintRows?_eq_paint hcolumns.1 hcolumns.2 hrows.1 hrows.2
    (shown b c.context.smoothing spot)
  rw [shown?_eq hw hh, hpaint]
  exact dif_pos (Bitmap.size_bytes _)

end Canvas

end EngineBridge
