import EngineBridge.Number.Decimal

/-! The shortest decimal that reads back as a given binary64 number, and among those the nearest
to it. All comparisons are between natural numbers, so no step rounds. -/
namespace EngineBridge

/-- The number `significand · 2^exponent`. Its neighbour below is only half as far away as the one
above where the significand is the least of its exponent. -/
structure Binary where
  significand : Nat
  exponent : Int
  narrowBelow : Bool
  deriving DecidableEq, Repr

inductive Tie where
  | toEven
  | upward
  deriving DecidableEq, Repr

namespace Binary

def ofBits (bits : UInt64) : Binary :=
  let biased := ((bits >>> 52) &&& 0x7FF).toNat
  let fraction := (bits &&& 0xFFFFFFFFFFFFF).toNat
  if biased = 0 then ⟨fraction, -1074, false⟩
  else ⟨0x10000000000000 + fraction, biased - 1075, fraction = 0 && biased > 1⟩

def scales (x : Binary) (k : Int) : Nat × Nat :=
  let q := x.exponent - 2
  (Nat.pow 2 q.toNat * Nat.pow 10 (-k).toNat, Nat.pow 10 k.toNat * Nat.pow 2 (-q).toNat)

/-- Whether `d · 10^k` rounds to `x`: it lies between the midpoints to the two neighbours, and on
a midpoint only if the significand is even. -/
def readsBack (x : Binary) (k : Int) (d : Nat) : Bool :=
  let (quarter, step) := x.scales k
  let low := (4 * x.significand - if x.narrowBelow then 1 else 2) * quarter
  let high := (4 * x.significand + 2) * quarter
  if x.significand % 2 = 0 then low ≤ d * step && d * step ≤ high
  else low < d * step && d * step < high

def onGrid? (tie : Tie) (x : Binary) (k : Int) : Option Decimal :=
  let (quarter, step) := x.scales k
  let below := 4 * x.significand * quarter / step
  let above := below + 1
  match x.readsBack k below, x.readsBack k above with
  | true, true =>
    let middle := (below + above) * step
    let upper :=
      match compare (2 * (4 * x.significand * quarter)) middle, tie with
      | .lt, _ => false
      | .gt, _ => true
      | .eq, .toEven => above % 2 = 0
      | .eq, .upward => true
    some ⟨if upper then above else below, k⟩
  | true, false => some ⟨below, k⟩
  | false, true => some ⟨above, k⟩
  | false, false => none

/-- The decimal of the coarsest grid on which some point reads back. A finite positive number is
below `10^309`, and on the grid `10^-324` a neighbour of any of them reads back. -/
def shortest (tie : Tie) (x : Binary) : Decimal :=
  ((List.range 634).findSome? fun i => x.onGrid? tie (309 - (i : Nat))).getD ⟨0, 0⟩

end Binary

end EngineBridge
