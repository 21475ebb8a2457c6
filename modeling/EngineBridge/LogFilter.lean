import EngineBridge.Number.FloatText
import EngineBridge.Text.Pattern

/-! Filters for log messages: parts between commas. A part gives a level, or it says where messages
come from, a target and a span with its fields, and may give the level for those. -/
namespace EngineBridge.LogFilter

def levels : List String := ["off", "error", "warn", "info", "debug", "trace"]

def parts (filter : String) : List String :=
  ((filter.splitOn ",").map fun part => String.ofList (trimBlanks part.toList)).filter (· ≠ "")

def levelIndex? (cs : List Char) : Option Nat :=
  let digits := if cs.head? = some '+' then cs.tail else cs
  if digits.isEmpty || !digits.all Char.isDigit then none
  else some (FloatText.number digits)

def isLevel (cs : List Char) : Bool :=
  cs.isEmpty || levels.contains (String.ofList (cs.map Char.toLower)) ||
    (levelIndex? cs).any (· < levels.length)

def isValue (cs : List Char) : Bool := (float? cs).isSome || isPattern cs

def isField (cs : List Char) : Bool :=
  !cs.isEmpty &&
    match cs.dropWhile (· ≠ '=') with
    | [] => true
    | _ :: rest => isValue (rest.takeWhile (· ≠ '='))

def isEnd : List Char → Bool
  | [] => true
  | '=' :: level => isLevel level
  | _ => false

/-- Whether a span is well formed after its bracket, and all that follows it. Its name may be
anything, and there is one field, as commas only stand between parts. -/
def isSpan (cs : List Char) : Bool :=
  match cs.dropWhile (fun c => c ≠ ']' && c ≠ '\x7b') with
  | ']' :: rest => isEnd rest
  | _ :: rest =>
    isField (rest.takeWhile (· ≠ '\x7d')) &&
      match rest.dropWhile (· ≠ '\x7d') with
      | _ :: ']' :: rest => isEnd rest
      | _ => false
  | [] => false

/-- Whether a part is understood. A target begins with a letter, a number or one of three marks, and
then may be anything. -/
def accepts (part : String) : Bool :=
  match part.toList with
  | [] => false
  | '[' :: rest => isSpan rest
  | first :: rest =>
    (first = '-' || first = ':' || first = '_' || isLetterOrNumber first) &&
      match rest.dropWhile (fun c => c ≠ '=' && c ≠ '[') with
      | '[' :: rest => isSpan rest
      | rest => isEnd rest

def rejected (filter : String) : List String := (parts filter).filter (!accepts ·)

end EngineBridge.LogFilter
