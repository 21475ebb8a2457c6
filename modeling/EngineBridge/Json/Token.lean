import EngineBridge.Json.Numeral

/-! The tokens of JSON text. The lexer is a machine that reads one character at a time. -/
namespace EngineBridge.Json

/-- A string is `none` where it holds half of a surrogate pair, which no text contains. -/
inductive Token where
  | openList
  | closeList
  | openObject
  | closeObject
  | comma
  | colon
  | null
  | bool (b : Bool)
  | number (n : Numeral)
  | text (s : Option String)
  deriving DecidableEq, Repr

structure Literal where
  text : String := ""
  /-- the first half of a surrogate pair, if it is the last thing read -/
  lead : Option Nat := none
  wellFormed : Bool := true
  deriving DecidableEq, Repr

namespace Literal

def push (s : Literal) (c : Char) : Literal :=
  ⟨s.text.push c, none, s.wellFormed && s.lead.isNone⟩

def isLead (unit : Nat) : Bool := 0xD800 ≤ unit && unit < 0xDC00

def isTrail (unit : Nat) : Bool := 0xDC00 ≤ unit && unit < 0xE000

def pushUnit (s : Literal) (unit : Nat) : Literal :=
  match s with
  | ⟨text, some lead, wellFormed⟩ =>
    if isTrail unit then
      ⟨text.push (Char.ofNat (0x10000 + (lead - 0xD800) * 0x400 + (unit - 0xDC00))), none,
        wellFormed⟩
    else ⟨text, none, false⟩
  | ⟨text, none, wellFormed⟩ =>
    if isLead unit then ⟨text, some unit, wellFormed⟩
    else if isTrail unit then ⟨text, none, false⟩
    else ⟨text.push (Char.ofNat unit), none, wellFormed⟩

def close (s : Literal) : Option String :=
  if s.wellFormed && s.lead.isNone then some s.text else none

end Literal

inductive Mode where
  | between
  | word (rest : List Char) (token : Token)
  | number (seen : List Char)
  | text (s : Literal)
  | escape (s : Literal)
  /-- an escape by code, with the hex digits still to come and the value so far -/
  | code (s : Literal) (digits : Nat) (value : Nat)
  deriving DecidableEq, Repr

structure Lexer where
  mode : Mode := .between
  tokens : Array Token := #[]
  deriving DecidableEq, Repr

def isBlank (c : Char) : Bool := c = ' ' || c = '\t' || c = '\n' || c = '\r'

def isNumeric (c : Char) : Bool :=
  c.isDigit || c = '-' || c = '+' || c = '.' || c = 'e' || c = 'E'

namespace Lexer

def escaped? : Char → Option Char
  | '"' => some '"'
  | '\\' => some '\\'
  | '/' => some '/'
  | 'b' => some '\x08'
  | 'f' => some '\x0c'
  | 'n' => some '\n'
  | 'r' => some '\r'
  | 't' => some '\t'
  | _ => none

def begin (tokens : Array Token) (c : Char) : Option Lexer :=
  match c with
  | '[' => some ⟨.between, tokens.push .openList⟩
  | ']' => some ⟨.between, tokens.push .closeList⟩
  | '\x7b' => some ⟨.between, tokens.push .openObject⟩
  | '\x7d' => some ⟨.between, tokens.push .closeObject⟩
  | ',' => some ⟨.between, tokens.push .comma⟩
  | ':' => some ⟨.between, tokens.push .colon⟩
  | '"' => some ⟨.text {}, tokens⟩
  | 't' => some ⟨.word ['r', 'u', 'e'] (.bool true), tokens⟩
  | 'f' => some ⟨.word ['a', 'l', 's', 'e'] (.bool false), tokens⟩
  | 'n' => some ⟨.word ['u', 'l', 'l'] .null, tokens⟩
  | _ =>
    if isBlank c then some ⟨.between, tokens⟩
    else if c.isDigit || c = '-' then some ⟨.number [c], tokens⟩
    else none

def closeNumber (tokens : Array Token) (seen : List Char) : Option (Array Token) :=
  (Numeral.parse? seen.reverse).map fun n => tokens.push (.number n)

def step : Lexer → Char → Option Lexer
  | ⟨.between, tokens⟩, c => begin tokens c
  | ⟨.word rest token, tokens⟩, c =>
    match rest with
    | [] => none
    | expected :: rest =>
      if c ≠ expected then none
      else if rest.isEmpty then some ⟨.between, tokens.push token⟩
      else some ⟨.word rest token, tokens⟩
  | ⟨.number seen, tokens⟩, c =>
    if isNumeric c then some ⟨.number (c :: seen), tokens⟩
    else (closeNumber tokens seen).bind (begin · c)
  | ⟨.text s, tokens⟩, c =>
    if c = '"' then some ⟨.between, tokens.push (.text s.close)⟩
    else if c = '\\' then some ⟨.escape s, tokens⟩
    else if c < ' ' then none
    else some ⟨.text (s.push c), tokens⟩
  | ⟨.escape s, tokens⟩, c =>
    if c = 'u' then some ⟨.code s 4 0, tokens⟩
    else (escaped? c).map fun e => ⟨.text (s.push e), tokens⟩
  | ⟨.code s digits value, tokens⟩, c =>
    (hexDigit? c).map fun d =>
      if digits ≤ 1 then ⟨.text (s.pushUnit (16 * value + d)), tokens⟩
      else ⟨.code s (digits - 1) (16 * value + d), tokens⟩

def close : Lexer → Option (List Token)
  | ⟨.between, tokens⟩ => some tokens.toList
  | ⟨.number seen, tokens⟩ => (closeNumber tokens seen).map Array.toList
  | _ => none

end Lexer

def Token.ofText? (text : List Char) : Option (List Token) :=
  (text.foldlM Lexer.step {}).bind Lexer.close

end EngineBridge.Json
