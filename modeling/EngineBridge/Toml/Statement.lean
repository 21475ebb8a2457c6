import EngineBridge.Toml.Quoted
import EngineBridge.Toml.Table
import EngineBridge.Toml.Atom

/-! The lines of a TOML document: comments, headers, and keys with their values. A reader takes the
characters from where it begins and gives back those that it leaves. -/
namespace EngineBridge.Toml

inductive Statement where
  | table (path : List String)
  | entry (path : List String)
  | assign (path : List String) (v : Toml)

namespace Statement

/-- How deep values and the tables of keys may nest. -/
def maxDepth : Nat := 79

def skipSpace (cs : List Char) : List Char := cs.dropWhile isSpace

def expect? (c : Char) : List Char → Option (List Char)
  | d :: rest => if c = d then some rest else none
  | [] => none

def isBare (c : Char) : Bool := c.isAlphanum || c = '_' || c = '-'

def simpleKey? (cs : List Char) : Option (String × List Char) :=
  match cs with
  | '"' :: rest => Quotation.line? '"' rest
  | '\'' :: rest => Quotation.line? '\'' rest
  | _ =>
    let key := cs.takeWhile isBare
    if key.isEmpty then none else some (.ofList key, cs.dropWhile isBare)

def keys? : Nat → List Char → Option (List String × List Char)
  | 0, _ => none
  | fuel + 1, cs => do
    let (key, rest) ← simpleKey? (skipSpace cs)
    match skipSpace rest with
    | '.' :: rest =>
      let (keys, rest) ← keys? fuel rest
      return (key :: keys, rest)
    | rest => return ([key], rest)

def path? : List Char → Option (List String × List Char) := keys? maxDepth

def skipGap? (inComment : Bool) : List Char → Option (List Char)
  | [] => if inComment then none else some []
  | '\n' :: rest => skipGap? false rest
  | '\r' :: rest =>
    match rest with
    | '\n' :: rest => skipGap? false rest
    | _ => none
  | c :: rest =>
    if inComment then (if isVisible c then skipGap? true rest else none)
    else if isSpace c then skipGap? false rest
    else if c = '#' then skipGap? true rest
    else some (c :: rest)

abbrev ValueReader := List Char → Option (Toml × List Char)

def items? (value? : ValueReader) : Nat → List Char → Option (List Toml × List Char)
  | 0, _ => none
  | fuel + 1, cs => do
    match ← skipGap? false cs with
    | ']' :: rest => return ([], rest)
    | cs =>
      let (v, rest) ← value? cs
      match ← skipGap? false rest with
      | ',' :: rest =>
        let (vs, rest) ← items? value? fuel rest
        return (v :: vs, rest)
      | ']' :: rest => return ([v], rest)
      | _ => none

def pair? (value? : ValueReader) (cs : List Char) :
    Option ((List String × Toml) × List Char) := do
  let (path, rest) ← path? cs
  let rest ← expect? '=' rest
  let (v, rest) ← value? (skipSpace rest)
  return ((path, v), rest)

def pairs? (value? : ValueReader) (t : Parts) : Nat → List Char → Option (Parts × List Char)
  | 0, _ => none
  | fuel + 1, cs => do
    let ((path, v), rest) ← pair? value? cs
    let t ← t.assign v path
    match skipSpace rest with
    | ',' :: rest => pairs? value? t fuel rest
    | '\x7d' :: rest => return (t, rest)
    | _ => none

def inlineTable? (value? : ValueReader) (cs : List Char) : Option (Parts × List Char) :=
  match skipSpace cs with
  | '\x7d' :: rest => some ([], rest)
  | cs => pairs? value? [] cs.length cs

def value? : Nat → ValueReader
  | _, [] => none
  | depth, c :: rest =>
    if c = '"' || c = '\'' then (Quotation.any? c rest).map fun (s, rest) => (.text s, rest)
    else if c = '[' then
      match depth with
      | 0 => none
      | depth + 1 =>
        (items? (value? depth) (rest.length + 1) rest).map fun (vs, rest) => (.list vs, rest)
    else if c = '\x7b' then
      match depth with
      | 0 => none
      | depth + 1 =>
        (inlineTable? (value? depth) rest).map fun (t, rest) => (.table (partsToToml t), rest)
    else Atom.read? (c :: rest)

def header? : List Char → Option (Statement × List Char)
  | '[' :: rest => do
    let (path, rest) ← path? rest
    return (.entry path, ← expect? ']' (← expect? ']' rest))
  | rest => do
    let (path, rest) ← path? rest
    return (.table path, ← expect? ']' rest)

def endLine? (cs : List Char) : Option (List Char) :=
  let rest := match skipSpace cs with
    | '#' :: rest => rest.dropWhile isVisible
    | rest => rest
  match rest with
  | [] => some []
  | '\n' :: rest => some rest
  | '\r' :: '\n' :: rest => some rest
  | _ => none

def read? : List Char → Option (Statement × List Char)
  | '[' :: rest => do
    let (s, rest) ← header? rest
    return (s, ← endLine? rest)
  | cs => do
    let ((path, v), rest) ← pair? (value? maxDepth) cs
    return (.assign path v, ← endLine? rest)

def isIdle : List Char → Bool
  | [] => true
  | c :: _ => c = '#' || c = '\n' || c = '\r'

def all? : Nat → List Char → Option (List Statement)
  | 0, cs => if cs.isEmpty then some [] else none
  | fuel + 1, cs => do
    let cs := skipSpace cs
    if cs.isEmpty then return []
    else if isIdle cs then all? fuel (← endLine? cs)
    else
      let (s, rest) ← read? cs
      return s :: (← all? fuel rest)

end Statement

/-- A document under construction: its table so far, and the keys that lead to the part which the
last header opened. -/
structure Draft where
  parts : Parts := []
  path : List String := []

namespace Draft

def enter (d : Draft) (change : String → Parts → Option Parts) (path : List String) :
    Option Draft := do
  let key ← path.getLast?
  return ⟨← Parts.reach (change key) path.dropLast d.parts, path⟩

def step (d : Draft) : Statement → Option Draft
  | .table path => d.enter Parts.define path
  | .entry path => d.enter Parts.append path
  | .assign path v => do
    return { d with parts := ← Parts.reach (Parts.assign v path) d.path d.parts }

end Draft

def ofText? (text : String) : Option Toml := do
  let cs := match text.toList with
    | '\ufeff' :: rest => rest
    | cs => cs
  let statements ← Statement.all? (cs.length + 1) cs
  let draft ← statements.foldlM Draft.step {}
  return .table (partsToToml draft.parts)

end EngineBridge.Toml
