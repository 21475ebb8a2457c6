/-! Decimal numbers and the binary64 numbers nearest to them. -/
namespace EngineBridge

structure Decimal where
  digits : Nat
  exponent : Int
  deriving DecidableEq, Repr

namespace Decimal

def magnitude (d : Decimal) : Int :=
  (Nat.toDigits 10 d.digits).length + d.exponent

/-- The nearest binary64 number, ties to even. Decimals of 10^310 and above are out of range, and
those below 10^-330 vanish, so no power of ten beyond those is ever computed. -/
def toFloat (d : Decimal) : Float :=
  if d.digits = 0 || d.magnitude < -330 then 0
  else if d.magnitude > 310 then 1 / 0
  else Float.ofScientific d.digits (d.exponent < 0) d.exponent.natAbs

end Decimal

def digit? (c : Char) : Option Nat :=
  if c.isDigit then some (c.toNat - '0'.toNat) else none

def hexDigit? (c : Char) : Option Nat :=
  if c.isDigit then some (c.toNat - '0'.toNat)
  else if 'a' ≤ c && c ≤ 'f' then some (c.toNat - 'a'.toNat + 10)
  else if 'A' ≤ c && c ≤ 'F' then some (c.toNat - 'A'.toNat + 10)
  else none

end EngineBridge
