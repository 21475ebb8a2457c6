import EngineBridge.Json.Value
import EngineBridge.Number.Decimal

/-! Numbers in JSON text. Whether a numeral is well formed does not depend on its size; whether
its value is in range does, so the two are separate steps. -/
namespace EngineBridge.Json

structure Numeral where
  negative : Bool
  whole : List Nat
  fraction : List Nat
  exponent : Option Int
  deriving DecidableEq, Repr

namespace Numeral

def digits (cs : List Char) : List Nat × List Char :=
  ((cs.takeWhile Char.isDigit).filterMap digit?, cs.dropWhile Char.isDigit)

def exponent? (cs : List Char) : Option Int :=
  let (negative, cs) := match cs with
    | '-' :: rest => (true, rest)
    | '+' :: rest => (false, rest)
    | _ => (false, cs)
  match digits cs with
  | (ds@(_ :: _), []) =>
    let n : Nat := ds.foldl (fun n d => 10 * n + d) 0
    some (if negative then -n else n)
  | _ => none

def ending? (negative : Bool) (whole fraction : List Nat) : List Char → Option Numeral
  | [] => some ⟨negative, whole, fraction, none⟩
  | 'e' :: rest | 'E' :: rest => do some ⟨negative, whole, fraction, some (← exponent? rest)⟩
  | _ => none

/-- A numeral after its sign: digits without a needless zero in front, then a fraction, then an
exponent. -/
def unsigned? (negative : Bool) (cs : List Char) : Option Numeral :=
  match digits cs with
  | ([], _) => none
  | (0 :: _ :: _, _) => none
  | (whole, '.' :: rest) =>
    match digits rest with
    | ([], _) => none
    | (fraction, rest) => ending? negative whole fraction rest
  | (whole, rest) => ending? negative whole [] rest

def parse? : List Char → Option Numeral
  | '-' :: rest => unsigned? true rest
  | cs => unsigned? false cs

structure Gathered where
  significand : Nat := 0
  exponent : Int := 0
  /-- the fraction has a digit that did not fit, so that none after it counts -/
  cut : Bool := false

def gatherWhole (ds : List Nat) : Gathered :=
  ds.foldl (fun g d =>
    if g.exponent = 0 && 10 * g.significand + d < 0x10000000000000000 then
      { g with significand := 10 * g.significand + d }
    else { g with exponent := g.exponent + 1 }) {}

def gatherFraction (g : Gathered) (ds : List Nat) : Gathered :=
  ds.foldl (fun g d =>
    if g.cut || 10 * g.significand + d ≥ 0x10000000000000000 then { g with cut := true }
    else { g with significand := 10 * g.significand + d, exponent := g.exponent - 1 }) g

def divide (x : Float) (places : Nat) : Float :=
  if places ≤ 308 then x / (Decimal.mk 1 places).toFloat
  else if x == 0 then x
  else divide (x / 1e308) (places - 308)
termination_by places

def scale? (x : Float) (exponent : Int) : Option Float :=
  if exponent < 0 then some (divide x exponent.natAbs)
  else if exponent ≤ 308 then
    let y := x * (Decimal.mk 1 exponent).toFloat
    if y.isInf then none else some y
  else if x == 0 then some x
  else none

def float? (n : Numeral) : Option Json := do
  let g := gatherFraction (gatherWhole n.whole) n.fraction
  let x ← scale? g.significand.toUInt64.toFloat (g.exponent + n.exponent.getD 0)
  some (.float (if n.negative then -x else x))

/-- The value: an integer if there is neither fraction nor exponent and it fits 64 bits, unsigned
or, below zero, signed. A negative zero is a float. -/
def value? (n : Numeral) : Option Json :=
  let magnitude : Nat := n.whole.foldl (fun m d => 10 * m + d) 0
  if n.fraction.isEmpty && n.exponent.isNone then
    if n.negative then
      if 0 < magnitude && magnitude ≤ 0x8000000000000000 then some (.int (-magnitude)) else n.float?
    else if magnitude < 0x10000000000000000 then some (.int magnitude) else n.float?
  else n.float?

end Numeral

end EngineBridge.Json
