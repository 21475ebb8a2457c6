import EngineBridge.Number.FloatText
import EngineBridge.Number.Word
import EngineBridge.Toml.Value

/-! TOML values that are written as one word: truth values, numbers, dates and times. -/
namespace EngineBridge.Toml.Atom

def digits? (isDigit : Char → Bool) : List Char → Option (List Char)
  | [] => none
  | [c] => if isDigit c then some [c] else none
  | c :: '_' :: rest => if isDigit c then (digits? isDigit rest).map (c :: ·) else none
  | c :: rest => if isDigit c then (digits? isDigit rest).map (c :: ·) else none

def whole? (cs : List Char) : Option (List Char) :=
  match cs with
  | '0' :: _ :: _ => none
  | _ => digits? Char.isDigit cs

def inRange (n : Int) : Option Int := if Word.isLong n then some n else none

def ofDigits (base : Nat) (ds : List Char) : Nat :=
  ds.foldl (fun n c => base * n + (hexDigit? c).getD 0) 0

def based? (base : Nat) (isDigit : Char → Bool) (cs : List Char) : Option Int :=
  (digits? isDigit cs).bind fun ds => inRange (ofDigits base ds)

def int? : List Char → Option Int
  | '0' :: 'x' :: cs => based? 16 (fun c => (hexDigit? c).isSome) cs
  | '0' :: 'o' :: cs => based? 8 (fun c => '0' ≤ c && c ≤ '7') cs
  | '0' :: 'b' :: cs => based? 2 (fun c => c = '0' || c = '1') cs
  | cs =>
    let (negative, cs) := FloatText.sign cs
    (whole? cs).bind fun ds =>
      let n : Int := ofDigits 10 ds
      inRange (if negative then -n else n)

def exponent? (cs : List Char) : Option (List Char) :=
  let (negative, cs) := FloatText.sign cs
  (digits? Char.isDigit cs).map fun ds => if negative then '-' :: ds else ds

def decimal? (cs : List Char) : Option (List Char) := do
  let isExponent := fun c => c = 'e' || c = 'E'
  let mantissa := cs.takeWhile (fun c => !isExponent c)
  let power ← match cs.dropWhile (fun c => !isExponent c) with
    | [] => some []
    | _ :: power => (exponent? power).map ('e' :: ·)
  let whole := mantissa.takeWhile (· ≠ '.')
  let fraction ← match mantissa.dropWhile (· ≠ '.') with
    | [] => if power.isEmpty then none else some []
    | _ :: fraction => (digits? Char.isDigit fraction).map ('.' :: ·)
  return (← whole? whole) ++ fraction ++ power

/-- A decimal or a word for what is no finite number. Of the decimals that are out of range only
those below zero are taken. -/
def float? (cs : List Char) : Option Float :=
  let (negative, size) := FloatText.sign cs
  if size = ['i', 'n', 'f'] || size = ['n', 'a', 'n'] then EngineBridge.float? cs
  else do
    let x ← EngineBridge.float? (← decimal? size)
    if negative then some (-x) else if x.isInf then none else some x

def two? (a b : Char) : Option Nat := do
  return 10 * (← digit? a) + (← digit? b)

def daysIn (year month : Nat) : Nat :=
  if month = 2 then (if year % 4 = 0 ∧ (year % 100 ≠ 0 ∨ year % 400 = 0) then 29 else 28)
  else if month = 4 ∨ month = 6 ∨ month = 9 ∨ month = 11 then 30
  else 31

def isDate (y₁ y₂ y₃ y₄ m₁ m₂ d₁ d₂ : Char) : Bool :=
  (do
    let year := 100 * (← two? y₁ y₂) + (← two? y₃ y₄)
    let month ← two? m₁ m₂
    let day ← two? d₁ d₂
    return decide (1 ≤ month ∧ month ≤ 12 ∧ 1 ≤ day ∧ day ≤ daysIn year month)).getD false

def isHourMinute (h₁ h₂ m₁ m₂ : Char) : Bool :=
  (do return decide ((← two? h₁ h₂) ≤ 23 ∧ (← two? m₁ m₂) ≤ 59)).getD false

def isSecond (s₁ s₂ : Char) : Bool := ((two? s₁ s₂).map (decide <| · ≤ 60)).getD false

def isOffset : List Char → Bool
  | [] => true
  | ['Z'] | ['z'] => true
  | [sign, h₁, h₂, ':', m₁, m₂] => (sign = '+' || sign = '-') && isHourMinute h₁ h₂ m₁ m₂
  | _ => false

def isTime (rest : List Char → Bool) : List Char → Bool
  | h₁ :: h₂ :: ':' :: m₁ :: m₂ :: ':' :: s₁ :: s₂ :: more =>
    isHourMinute h₁ h₂ m₁ m₂ && isSecond s₁ s₂ &&
      (match more with
        | '.' :: fraction =>
          (fraction.head?.map Char.isDigit).getD false && rest (fraction.dropWhile Char.isDigit)
        | _ => rest more)
  | _ => false

def isMoment (cs : List Char) : Bool :=
  match cs with
  | y₁ :: y₂ :: y₃ :: y₄ :: '-' :: m₁ :: m₂ :: '-' :: d₁ :: d₂ :: rest =>
    isDate y₁ y₂ y₃ y₄ m₁ m₂ d₁ d₂ &&
      (match rest with
        | [] => true
        | sep :: time => (sep = 'T' || sep = 't' || sep = ' ') && isTime isOffset time)
  | _ => isTime List.isEmpty cs

def value? (cs : List Char) : Option Toml :=
  if cs = "true".toList then some (.bool true)
  else if cs = "false".toList then some (.bool false)
  else if isMoment cs then some (.moment (.ofList cs))
  else
    match int? cs with
    | some n => some (.int n)
    | none => (float? cs).map .float

def isPart (c : Char) : Bool :=
  c.isAlphanum || c = '_' || c = '+' || c = '-' || c = '.' || c = ':'

/-- The word in front and what follows it. A date takes a time with it that a blank sets off. -/
def split (cs : List Char) : List Char × List Char :=
  let word := cs.takeWhile isPart
  match cs.dropWhile isPart with
  | ' ' :: rest =>
    if isMoment word && word.length = 10 && (rest.head?.map Char.isDigit).getD false then
      (word ++ ' ' :: rest.takeWhile isPart, rest.dropWhile isPart)
    else (word, ' ' :: rest)
  | rest => (word, rest)

def read? (cs : List Char) : Option (Toml × List Char) :=
  let (word, rest) := split cs
  (value? word).map (·, rest)

end EngineBridge.Toml.Atom
