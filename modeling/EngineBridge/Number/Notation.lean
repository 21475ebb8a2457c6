import EngineBridge.Number.Shortest

/-! How a binary64 number is laid out as text once its shortest digits are known. Each place that
prints numbers has a `Layout` of its own. -/
namespace EngineBridge

structure Layout where
  /-- which powers of ten of the first digit are written without an exponent -/
  isPositional : Int → Bool
  integralEnd : String
  tie : Tie
  notANumber : String
  infinity : String

namespace Layout

/-- Digits with a point after the first `whole` of them; zeros fill up on either side. -/
def positional (integralEnd : String) (digits : List Char) (whole : Int) : String :=
  let n : Int := digits.length
  if n ≤ whole then
    String.ofList (digits ++ List.replicate (whole - n).toNat '0') ++ integralEnd
  else if 0 < whole then
    String.ofList (digits.take whole.toNat ++ '.' :: digits.drop whole.toNat)
  else String.ofList ('0' :: '.' :: (List.replicate (-whole).toNat '0' ++ digits))

def scientific (digits : List Char) (exponent : Int) : String :=
  let mantissa := match digits with
    | first :: rest@(_ :: _) => first :: '.' :: rest
    | _ => digits
  let sign := if exponent < 0 then "e-" else "e+"
  String.ofList mantissa ++ sign ++ toString exponent.natAbs

def magnitude (layout : Layout) (bits : UInt64) : String :=
  let x := Binary.ofBits bits
  if x.significand = 0 then "0" ++ layout.integralEnd
  else
    let d := x.shortest layout.tie
    let digits := Nat.toDigits 10 d.digits
    let whole := digits.length + d.exponent
    if layout.isPositional (whole - 1) then positional layout.integralEnd digits whole
    else scientific digits (whole - 1)

def render (layout : Layout) (x : Float) : String :=
  let bits := x.toBits
  if x.isNaN then layout.notANumber
  else
    let sign := if bits >>> 63 = 1 then "-" else ""
    sign ++ if x.isInf then layout.infinity else layout.magnitude bits

/-- In messages a number never has an exponent, and no fraction if it is integral. -/
def plain : Layout where
  isPositional := fun _ => true
  integralEnd := ""
  tie := .upward
  notANumber := "NaN"
  infinity := "inf"

end Layout

end EngineBridge
