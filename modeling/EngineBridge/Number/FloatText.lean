import EngineBridge.Number.Decimal

/-! Decimal text read as the nearest binary64 number. -/
namespace EngineBridge

namespace FloatText

def sign : List Char → Bool × List Char
  | '-' :: rest => (true, rest)
  | '+' :: rest => (false, rest)
  | cs => (false, cs)

def number (digits : List Char) : Nat :=
  Nat.ofDigitChars 10 digits 0

def exponent? (cs : List Char) : Option Int :=
  let (negative, digits) := sign cs
  if digits.isEmpty || !digits.all Char.isDigit then none
  else some (if negative then -(number digits : Int) else number digits)

def decimal? (cs : List Char) : Option Decimal :=
  let whole := cs.takeWhile Char.isDigit
  let rest := cs.dropWhile Char.isDigit
  let (fraction, rest) := match rest with
    | '.' :: more => (more.takeWhile Char.isDigit, more.dropWhile Char.isDigit)
    | _ => ([], rest)
  if whole.isEmpty && fraction.isEmpty then none
  else
    let digits := number (whole ++ fraction)
    match rest with
    | [] => some ⟨digits, -fraction.length⟩
    | 'e' :: power | 'E' :: power =>
      (exponent? power).map fun e => ⟨digits, e - fraction.length⟩
    | _ => none

/-- A number without its sign; the words for what is no finite number are read in any case. -/
def magnitude? (cs : List Char) : Option Float :=
  let word := String.ofList (cs.map Char.toLower)
  if word = "inf" || word = "infinity" then some (1 / 0)
  else if word = "nan" then some (0 / 0)
  else (decimal? cs).map Decimal.toFloat

end FloatText

def float? (text : List Char) : Option Float :=
  let (negative, rest) := FloatText.sign text
  (FloatText.magnitude? rest).map fun x => if negative then -x else x

end EngineBridge
