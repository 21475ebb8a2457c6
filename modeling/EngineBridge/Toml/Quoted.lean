import EngineBridge.Number.Decimal

/-! Quoted text in TOML. There are two marks, of which one allows escapes, and each can be set once
around a line or three times around several. The reader is a machine that takes one character at a
time. -/
namespace EngineBridge.Toml

def isSpace (c : Char) : Bool := c = ' ' || c = '\t'

def isVisible (c : Char) : Bool := c = '\t' || (' ' ≤ c && c ≠ '\x7f')

structure Quotation where
  mark : Char
  multiline : Bool
  deriving DecidableEq, Repr

namespace Quotation

def allowsEscapes (q : Quotation) : Bool := q.mark = '"'

inductive Mode where
  | plain
  /-- so many marks in a row, which may be text or the end -/
  | marks (count : Nat)
  | escape
  | code (digits : Nat) (value : Nat)
  /-- a line that goes on with the next character that is not blank; whether it has ended yet -/
  | continued (ended : Bool)
  /-- after a carriage return, which only begins a line end -/
  | lineEnd (continued : Bool)
  deriving DecidableEq, Repr

inductive Step where
  | more (text : List Char) (mode : Mode)
  | done (text : List Char)

def escaped? : Char → Option Char
  | '"' => some '"'
  | '\\' => some '\\'
  | 'b' => some '\x08'
  | 'f' => some '\x0c'
  | 'n' => some '\n'
  | 'r' => some '\r'
  | 't' => some '\t'
  | _ => none

def character? (n : Nat) : Option Char :=
  if n.isValidChar then some (Char.ofNat n) else none

def closing? (q : Quotation) (count : Nat) : Option Nat :=
  if q.multiline then (if 3 ≤ count then some (count - 3) else none) else some 0

def stepPlain (q : Quotation) (c : Char) : Option Step :=
  if c = q.mark then some (.more [] (.marks 1))
  else if c = '\\' && q.allowsEscapes then some (.more [] .escape)
  else if c = '\n' && q.multiline then some (.more [c] .plain)
  else if c = '\r' && q.multiline then some (.more [] (.lineEnd false))
  else if isVisible c then some (.more [c] .plain)
  else none

def stepContinued (q : Quotation) (ended : Bool) (c : Char) : Option Step :=
  if isSpace c then some (.more [] (.continued ended))
  else if c = '\n' then some (.more [] (.continued true))
  else if c = '\r' then some (.more [] (.lineEnd true))
  else if ended then stepPlain q c
  else none

def stepEscape (q : Quotation) (c : Char) : Option Step :=
  if c = 'u' then some (.more [] (.code 4 0))
  else if c = 'U' then some (.more [] (.code 8 0))
  else
    match escaped? c with
    | some e => some (.more [e] .plain)
    | none => if q.multiline then stepContinued q false c else none

def stepCode (digits value : Nat) (c : Char) : Option Step := do
  let value := 16 * value + (← hexDigit? c)
  if digits ≤ 1 then return .more [← character? value] .plain
  else return .more [] (.code (digits - 1) value)

/-- Up to five marks in a row can end a text of several lines: two of its own and three to close. -/
def stepMarks (q : Quotation) (count : Nat) (c : Char) : Option Step :=
  if c = q.mark && q.multiline && count < 5 then some (.more [] (.marks (count + 1)))
  else
    match q.closing? count with
    | some inside => some (.done (List.replicate inside q.mark))
    | none =>
      (stepPlain q c).map fun
        | .more text mode => .more (List.replicate count q.mark ++ text) mode
        | .done text => .done text

def step (q : Quotation) : Mode → Char → Option Step
  | .plain, c => stepPlain q c
  | .marks count, c => stepMarks q count c
  | .escape, c => stepEscape q c
  | .code digits value, c => stepCode digits value c
  | .continued ended, c => stepContinued q ended c
  | .lineEnd continued, c =>
    if c ≠ '\n' then none
    else if continued then some (.more [] (.continued true))
    else some (.more [c] .plain)

def finish? (q : Quotation) : Mode → Option (List Char)
  | .marks count => (q.closing? count).map (List.replicate · q.mark)
  | _ => none

def read? (q : Quotation) (text : List Char) : Mode → List Char → Option (String × List Char)
  | mode, [] => (q.finish? mode).map fun last => (.ofList (text.reverse ++ last), [])
  | mode, c :: rest =>
    match q.step mode c with
    | some (.more new mode) => read? q (new.reverse ++ text) mode rest
    | some (.done last) => some (.ofList (text.reverse ++ last), c :: rest)
    | none => none

def line? (mark : Char) (cs : List Char) : Option (String × List Char) :=
  read? ⟨mark, false⟩ [] .plain cs

def any? (mark : Char) : List Char → Option (String × List Char)
  | a :: b :: rest =>
    if a = mark && b = mark then
      read? ⟨mark, true⟩ [] .plain (match rest with
        | '\n' :: rest => rest
        | '\r' :: '\n' :: rest => rest
        | _ => rest)
    else line? mark (a :: b :: rest)
  | cs => line? mark cs

end Quotation

end EngineBridge.Toml
