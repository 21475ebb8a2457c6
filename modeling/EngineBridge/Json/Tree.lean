import EngineBridge.Json.Token

/-! The structure of JSON text before any value in it is judged: numbers may still be out of range,
strings may hold half a surrogate pair, names may repeat, and lists may nest without bound. A
reader can so pass over a part that it does not need without looking into it. -/
namespace EngineBridge.Json

inductive Tree where
  | null
  | bool (b : Bool)
  | number (n : Numeral)
  | text (s : Option String)
  | list (items : List Tree)
  | object (fields : List (Option String × Tree))
  deriving Repr, Inhabited

inductive Open where
  | list (items : List Tree)
  | object (fields : List (Option String × Tree))
  /-- an object whose last name still lacks its value -/
  | field (fields : List (Option String × Tree)) (name : Option String)

inductive Expected where
  | value
  | valueOrClose
  | name
  | nameOrClose
  | colon
  | commaOrClose
  deriving DecidableEq, Repr

inductive Builder where
  | partly (expected : Expected) (stack : List Open)
  | complete (tree : Tree)

namespace Builder

def deliver (tree : Tree) : List Open → Option Builder
  | [] => some (.complete tree)
  | .list items :: outer => some (.partly .commaOrClose (.list (tree :: items) :: outer))
  | .field fields name :: outer =>
    some (.partly .commaOrClose (.object ((name, tree) :: fields) :: outer))
  | .object _ :: _ => none

def beginValue (stack : List Open) : Token → Option Builder
  | .null => deliver .null stack
  | .bool b => deliver (.bool b) stack
  | .number n => deliver (.number n) stack
  | .text s => deliver (.text s) stack
  | .openList => some (.partly .valueOrClose (.list [] :: stack))
  | .openObject => some (.partly .nameOrClose (.object [] :: stack))
  | _ => none

def beginField (stack : List Open) (name : Option String) : Option Builder :=
  match stack with
  | .object fields :: outer => some (.partly .colon (.field fields name :: outer))
  | _ => none

def closeList : List Open → Option Builder
  | .list items :: outer => deliver (.list items.reverse) outer
  | _ => none

def closeObject : List Open → Option Builder
  | .object fields :: outer => deliver (.object fields.reverse) outer
  | _ => none

def step : Builder → Token → Option Builder
  | .complete _, _ => none
  | .partly .value stack, token => beginValue stack token
  | .partly .valueOrClose stack, .closeList => closeList stack
  | .partly .valueOrClose stack, token => beginValue stack token
  | .partly .name stack, .text name => beginField stack name
  | .partly .name _, _ => none
  | .partly .nameOrClose stack, .text name => beginField stack name
  | .partly .nameOrClose stack, .closeObject => closeObject stack
  | .partly .nameOrClose _, _ => none
  | .partly .colon stack, .colon => some (.partly .value stack)
  | .partly .colon _, _ => none
  | .partly .commaOrClose stack, .closeList => closeList stack
  | .partly .commaOrClose stack, .closeObject => closeObject stack
  | .partly .commaOrClose stack, .comma =>
    match stack with
    | .list _ :: _ => some (.partly .value stack)
    | .object _ :: _ => some (.partly .name stack)
    | _ => none
  | .partly .commaOrClose _, _ => none

def close : Builder → Option Tree
  | .complete tree => some tree
  | .partly _ _ => none

end Builder

namespace Tree

def ofTokens? (tokens : List Token) : Option Tree :=
  (tokens.foldlM Builder.step (.partly .value [])).bind Builder.close

def ofText? (text : String) : Option Tree :=
  (Token.ofText? text.toList).bind ofTokens?

mutual

/-- The value of a tree that nests at most `depth` lists and objects. Every number must be in
range, every string well formed, and of several fields of one name the last counts. -/
def value? (depth : Nat) : Tree → Option Json
  | .null => some .null
  | .bool b => some (.bool b)
  | .number n => n.value?
  | .text s => s.map .text
  | .list items => if depth = 0 then none else (values? (depth - 1) items).map .list
  | .object fields => if depth = 0 then none else (fields? (depth - 1) fields).map .ofFields

def values? (depth : Nat) : List Tree → Option (List Json)
  | [] => some []
  | tree :: rest => do
    let v ← tree.value? depth
    let vs ← values? depth rest
    some (v :: vs)

def fields? (depth : Nat) : List (Option String × Tree) → Option (List (String × Json))
  | [] => some []
  | (name, tree) :: rest => do
    let name ← name
    let v ← tree.value? depth
    let vs ← fields? depth rest
    some ((name, v) :: vs)

end

end Tree

end EngineBridge.Json
