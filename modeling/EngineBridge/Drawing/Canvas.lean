import EngineBridge.Update
import EngineBridge.Drawing.Context
import EngineBridge.Drawing.Sample

/-! A surface of pixels with a drawing state. -/
namespace EngineBridge

structure Canvas (α : Type) where
  surface : Bitmap
  styleSize : LogicalSize
  context : DrawContext α

namespace Canvas

variable {α : Type} [Scalar α]

def empty : Canvas α := ⟨.solid 0 0 .clear, {}, .initial⟩

instance : Inhabited (Canvas α) := ⟨empty⟩

def size (c : Canvas α) : PhysicalSize := c.surface.size

/-- Replaces the surface by a clear one. The drawing state stays. -/
def setSize (size : PhysicalSize) : Update (Canvas α) Unit := do
  Update.ofExcept size.checkLimit
  modify fun c => { c with surface := .solid size.width size.height .clear }

def setStyleSize (size : LogicalSize) : Update (Canvas α) Unit :=
  modify fun c => { c with styleSize := size }

@[specialize] def onContext (change : DrawContext α → DrawContext α) : Update (Canvas α) Unit :=
  modify fun c => { c with context := change c.context }

/-- Where an image lands: the transform's scale and the images of two opposite corners. -/
structure Placement (α : Type) where
  scaleX : α
  scaleY : α
  left : α
  top : α
  right : α
  bottom : α

@[inline] def placement (t : Transform α) (b : Bitmap) (x y : α) : Placement α :=
  let (left, top) := t.apply x y
  let (right, bottom) :=
    t.apply (x + Scalar.ofNat b.width.toNat) (y + Scalar.ofNat b.height.toNat)
  ⟨t.scaleX, t.scaleY, left, top, right, bottom⟩

@[inline] def source (p : Nat) (start scale : α) : α :=
  (Scalar.ofNat p + Scalar.half - start) / scale

@[inline] def shown (b : Bitmap) (smoothing : Bool) (spot : Placement α) (y : Nat) : Nat → Pixel :=
  let v := source y spot.top spot.scaleY
  fun x =>
    let u := source x spot.left spot.scaleX
    if smoothing then b.sampleBilinear u v else b.sampleNearest u v

/-- Draws an image with its corner at `(x, y)`. The pixels whose centres it covers are replaced.
Nothing is drawn from an empty image, or where the scale is not positive. -/
@[specialize] def draw (c : Canvas α) (b : Bitmap) (x y : α) : Canvas α :=
  let t := c.context.transform
  if b.bytes.isEmpty || c.surface.bytes.isEmpty || t.scaleX ≤ Scalar.ofNat 0
      || t.scaleY ≤ Scalar.ofNat 0 then c
  else
    let spot := placement t b x y
    let (left, right) := Scalar.covered spot.left spot.right c.surface.width.toNat
    let (top, bottom) := Scalar.covered spot.top spot.bottom c.surface.height.toNat
    { c with surface := c.surface.paint left right top bottom (shown b c.context.smoothing spot) }

end Canvas

end EngineBridge
