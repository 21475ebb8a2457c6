import EngineBridge.Json.Value
import EngineBridge.Number.Notation

/-! The text of JSON values, without blanks, or indented for a reader. -/
namespace EngineBridge.Json

/-- Floats always show a fraction or an exponent. A number that JSON cannot express is `null`. -/
def floatLayout : Layout where
  isPositional := fun power => -5 ≤ power && power < 16
  integralEnd := ".0"
  tie := .toEven
  notANumber := "null"
  infinity := "null"

def renderFloat (x : Float) : String :=
  if x.isInf then floatLayout.infinity else floatLayout.render x

def hexDigit (n : Nat) : Char := Nat.digitChar n

def escape (c : Char) : List Char :=
  match c with
  | '"' => ['\\', '"']
  | '\\' => ['\\', '\\']
  | '\x08' => ['\\', 'b']
  | '\x0c' => ['\\', 'f']
  | '\n' => ['\\', 'n']
  | '\r' => ['\\', 'r']
  | '\t' => ['\\', 't']
  | _ =>
    if c < ' ' then ['\\', 'u', '0', '0', hexDigit (c.toNat / 16), hexDigit (c.toNat % 16)]
    else [c]

def quote (s : String) : List Char :=
  '"' :: s.toList.flatMap escape ++ ['"']

def scalarChars : Json → List Char
  | .null => ['n', 'u', 'l', 'l']
  | .bool true => ['t', 'r', 'u', 'e']
  | .bool false => ['f', 'a', 'l', 's', 'e']
  | .int n => (toString n).toList
  | .float x => (renderFloat x).toList
  | .text s => quote s
  | .list _ | .object _ => []

mutual

def chars : Json → List Char
  | .list items => '[' :: itemChars items ++ [']']
  | .object fields => '\x7b' :: fieldChars fields ++ ['\x7d']
  | scalar => scalarChars scalar

def itemChars : List Json → List Char
  | [] => []
  | [item] => item.chars
  | item :: rest => item.chars ++ ',' :: itemChars rest

def fieldChars : List (String × Json) → List Char
  | [] => []
  | [(name, v)] => quote name ++ ':' :: v.chars
  | (name, v) :: rest => quote name ++ ':' :: v.chars ++ ',' :: fieldChars rest

end

def render (v : Json) : String := .ofList v.chars

def indent (level : Nat) : List Char :=
  '\n' :: List.replicate (2 * level) ' '

mutual

def prettyChars (level : Nat) : Json → List Char
  | .list [] => ['[', ']']
  | .list items =>
    '[' :: prettyItems (level + 1) items ++ indent level ++ [']']
  | .object [] => ['\x7b', '\x7d']
  | .object fields =>
    '\x7b' :: prettyFields (level + 1) fields ++ indent level ++ ['\x7d']
  | scalar => scalarChars scalar

def prettyItems (level : Nat) : List Json → List Char
  | [] => []
  | [item] => indent level ++ item.prettyChars level
  | item :: rest => indent level ++ item.prettyChars level ++ ',' :: prettyItems level rest

def prettyFields (level : Nat) : List (String × Json) → List Char
  | [] => []
  | [(name, v)] => indent level ++ quote name ++ ':' :: ' ' :: v.prettyChars level
  | (name, v) :: rest =>
    indent level ++ quote name ++ ':' :: ' ' :: v.prettyChars level ++ ',' ::
      prettyFields level rest

end

def renderPretty (v : Json) : String := .ofList (v.prettyChars 0)

end EngineBridge.Json
