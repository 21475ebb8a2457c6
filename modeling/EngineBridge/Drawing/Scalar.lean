/-! The numbers that positions and scale factors are made of. The surface is defined over any such
numbers: it runs on binary floats, and over the rationals the same definitions are its exact
geometry. -/
namespace EngineBridge

/-- Numbers with the four operations, an order that may leave some of them incomparable even with
themselves, and a way to and from the natural numbers. -/
class Scalar (α : Type) extends Add α, Sub α, Mul α, Div α, LT α, LE α where
  ofNat : Nat → α
  half : α
  /-- the natural number left when the fraction is dropped; 0 for what is negative or no number -/
  truncate : α → Nat
  isFinite : α → Bool
  decLt : DecidableLT α
  decLe : DecidableLE α

namespace Scalar

attribute [reducible, instance] decLt decLe

@[inline] def isDefined {α : Type} [Scalar α] (x : α) : Bool := decide (x ≤ x)

end Scalar

/-- Floats drop their fraction into 32 bits and stay at the largest word beyond them. -/
instance : Scalar Float where
  ofNat n := n.toUInt64.toFloat
  half := 0.5
  truncate x := x.toUInt32.toNat
  isFinite x := x.isFinite
  decLt := inferInstance
  decLe := inferInstance

instance : Scalar Rat where
  ofNat n := n
  half := 1 / 2
  truncate x := x.floor.toNat
  isFinite _ := true
  decLt := inferInstance
  decLe := inferInstance

end EngineBridge
