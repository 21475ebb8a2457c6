import EngineBridge.Drawing.Scalar

/-! The drawing state of a canvas: where points go, and how images are resampled. -/
namespace EngineBridge

/-- Takes `(x, y)` to `(scaleX · x + translateX, scaleY · y + translateY)`. -/
structure Transform (α : Type) where
  scaleX : α
  scaleY : α
  translateX : α
  translateY : α
  deriving DecidableEq, BEq, Repr

namespace Transform

variable {α : Type} [Scalar α]

def identity : Transform α :=
  ⟨Scalar.ofNat 1, Scalar.ofNat 1, Scalar.ofNat 0, Scalar.ofNat 0⟩

@[inline] def apply (t : Transform α) (x y : α) : α × α :=
  (t.scaleX * x + t.translateX, t.scaleY * y + t.translateY)

/-- The transform that scales first and then does what `t` does. -/
@[inline] def scale (t : Transform α) (sx sy : α) : Transform α :=
  { t with scaleX := t.scaleX * sx, scaleY := t.scaleY * sy }

@[inline] def translate (t : Transform α) (tx ty : α) : Transform α :=
  { t with
    translateX := t.translateX + t.scaleX * tx
    translateY := t.translateY + t.scaleY * ty }

end Transform

structure DrawContext (α : Type) where
  transform : Transform α
  /-- whether a pixel is blended from its four nearest in the image, or copied from the nearest -/
  smoothing : Bool
  deriving DecidableEq, BEq, Repr

namespace DrawContext

variable {α : Type} [Scalar α]

def initial : DrawContext α := ⟨.identity, true⟩

instance : Inhabited (DrawContext α) := ⟨initial⟩

@[inline] def scale (c : DrawContext α) (sx sy : α) : DrawContext α :=
  { c with transform := c.transform.scale sx sy }

@[inline] def translate (c : DrawContext α) (tx ty : α) : DrawContext α :=
  { c with transform := c.transform.translate tx ty }

@[inline] def setSmoothing (c : DrawContext α) (on : Bool) : DrawContext α :=
  { c with smoothing := on }

end DrawContext

end EngineBridge
