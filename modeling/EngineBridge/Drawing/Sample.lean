import EngineBridge.Drawing.Bitmap

/-! Which pixels an image covers, and what an image shows at a point between its pixels. -/
namespace EngineBridge

namespace Scalar

variable {α : Type} [Scalar α]

/-- How many of the first `limit` pixels along an axis have their centre before `x`. -/
@[inline] def centresBefore (x : α) (limit : Nat) : Nat :=
  let e := x - half
  if e ≤ ofNat 0 then 0
  else if ofNat limit ≤ e then limit
  else
    let whole := truncate e
    if ofNat whole < e then whole + 1 else whole

/-- The first pixel covered from `start` to `stop` and the first one after those. An undefined
`start` bounds nothing, and so does an undefined `stop`. -/
@[inline] def covered (start stop : α) (limit : Nat) : Nat × Nat :=
  (centresBefore start limit, if isDefined stop then centresBefore stop limit else limit)

@[inline] def toByte (x : α) : UInt8 :=
  let whole := truncate x
  if 255 ≤ whole then 255
  else if half ≤ x - ofNat whole then .ofNat (whole + 1) else .ofNat whole

@[inline] def clamp (x high : α) : α :=
  let y := if x < ofNat 0 then ofNat 0 else x
  if high < y then high else y

end Scalar

namespace Bitmap

@[inline] def pixel (b : Bitmap) (x y : Nat) : Pixel := (b.pixel? x y).getD .clear

variable {α : Type} [Scalar α]

@[inline] def nearest (u : α) (count : Nat) : Nat :=
  min (Scalar.truncate u) (count - 1)

@[inline] def sampleNearest (b : Bitmap) (u v : α) : Pixel :=
  b.pixel (nearest u b.width.toNat) (nearest v b.height.toNat)

/-- Two neighbouring pixels along an axis and how far a point is from the centre of the first to
that of the second. -/
structure Between (α : Type) where
  first : Nat
  second : Nat
  share : α

@[inline] def between (u : α) (count : Nat) : Between α :=
  let f := Scalar.clamp (u - Scalar.half) (Scalar.ofNat (count - 1))
  let first := Scalar.truncate f
  ⟨first, min (first + 1) (count - 1), f - Scalar.ofNat first⟩

@[inline] def mix (p q share : α) : α :=
  p * (Scalar.ofNat 1 - share) + q * share

@[inline] def blend (tx ty : α) (p q r s : UInt8) : UInt8 :=
  let channel (c : UInt8) : α := Scalar.ofNat c.toNat
  Scalar.toByte (mix (mix (channel p) (channel q) tx) (mix (channel r) (channel s) tx) ty)

@[inline] def sampleBilinear (b : Bitmap) (u v : α) : Pixel :=
  let x := between u b.width.toNat
  let y := between v b.height.toNat
  Pixel.map4 (blend x.share y.share) (b.pixel x.first y.first) (b.pixel x.second y.first)
    (b.pixel x.first y.second) (b.pixel x.second y.second)

end Bitmap

end EngineBridge
