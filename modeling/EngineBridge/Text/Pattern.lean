import EngineBridge.Number.Decimal
import EngineBridge.Text.Alphanumeric
import EngineBridge.Text.Blank

/-! Which texts are patterns for values: characters, sets of them in brackets, groups, choices and
repetitions, which may only nest so deep. No tables of scripts are at hand, so unless a pattern
confines itself to ASCII there are no classes by name, and no characters where case is ignored.
There are no counted repetitions at all. -/
namespace EngineBridge

namespace Pattern

structure Mode where
  ignoresCase : Bool := false
  isAscii : Bool := false
  /-- blanks and comments mean nothing -/
  isVerbose : Bool := false
  deriving DecidableEq, Repr

def Mode.compares (m : Mode) : Bool := m.isAscii || !m.ignoresCase

def skipBlanks (inComment : Bool) : List Char → List Char
  | [] => []
  | c :: cs =>
    if inComment then skipBlanks (c ≠ '\n') cs
    else if c = '#' then skipBlanks true cs
    else if isBlank c then skipBlanks false cs
    else c :: cs

def Mode.skip (m : Mode) (cs : List Char) : List Char :=
  if m.isVerbose then skipBlanks false cs else cs

/-- The character that a dash may make a range up to. After a mark that begins a comment it is the
next one that is not blank, even inside the comment. -/
def Mode.next? (m : Mode) (cs : List Char) : Option Char :=
  if m.isVerbose then
    let rest := cs.dropWhile isBlank
    let rest := if rest.head? = some '#' then rest.tail.dropWhile isBlank else rest
    rest.head? <|> cs.head?
  else cs.head?

/-- How deep parts that stand side by side nest, given how deep each of them does. Several parts
make one more level. -/
def nesting : List Nat → Nat
  | [] => 0
  | [depth] => depth
  | depths => depths.foldl max 0 + 1

def maxNesting : Nat := 250

inductive Escape where
  | character (c : Char)
  | set
  | place
  deriving DecidableEq, Repr

def code? (m : Mode) (value : Nat) : Nat → List Char → Option (Nat × List Char)
  | 0, cs => some (value, m.skip cs)
  | count + 1, cs =>
    match m.skip cs with
    | c :: rest => (hexDigit? c).bind fun digit => code? m (16 * value + digit) count rest
    | [] => none

def coded? (m : Mode) (count : Nat) (cs : List Char) : Option (Escape × List Char) := do
  let (n, rest) ← code? m 0 count cs
  if n.isValidChar then some (.character (.ofNat n), rest) else none

def escape? (m : Mode) : List Char → Option (Escape × List Char)
  | [] => none
  | 'x' :: rest => do
    let (n, _) ← code? m 0 2 rest
    if m.isAscii && 0x80 ≤ n then none else coded? m 2 rest
  | 'u' :: rest => coded? m 4 rest
  | 'U' :: rest => coded? m 8 rest
  | 'a' :: rest => some (.character '\x07', rest)
  | 'f' :: rest => some (.character '\x0c', rest)
  | 'n' :: rest => some (.character '\n', rest)
  | 'r' :: rest => some (.character '\r', rest)
  | 't' :: rest => some (.character '\t', rest)
  | 'v' :: rest => some (.character '\x0b', rest)
  | 'A' :: rest | 'z' :: rest => some (.place, rest)
  | 'b' :: rest | 'B' :: rest | '<' :: rest | '>' :: rest =>
    if m.isAscii then some (.place, rest) else none
  | 'd' :: rest | 's' :: rest | 'w' :: rest => if m.isAscii then some (.set, rest) else none
  | c :: rest => if c.isAlphanum || 0x80 ≤ c.toNat then none else some (.character c, rest)

def classNames : List String :=
  ["alnum", "alpha", "ascii", "blank", "cntrl", "digit", "graph", "lower", "print", "punct",
    "space", "upper", "word", "xdigit"]

def namedClass? : List Char → Option (Bool × List Char)
  | ':' :: rest =>
    let negated : Bool := rest.head? = some '^'
    let rest := if negated then rest.tail else rest
    classNames.findSome? fun name =>
      let whole := (name ++ ":]").toList
      if whole.isPrefixOf rest then some (negated, rest.drop whole.length) else none
  | _ => none

def openSet? (m : Mode) (cs : List Char) : Option (List Char) :=
  match m.skip cs with
  | '^' :: rest => if m.isAscii then none else some rest
  | rest => some rest

def item? (m : Mode) (cs : List Char) : Option (Option Char × List Char) :=
  let character (c : Char) (rest : List Char) :=
    if m.isAscii && 0x80 ≤ c.toNat then none else some (some c, rest)
  match cs with
  | [] => none
  | '\\' :: rest =>
    match escape? m rest with
    | some (.character c, rest) => character c rest
    | some (.set, rest) => some (none, rest)
    | _ => none
  | c :: rest => character c rest

def range? (m : Mode) (cs : List Char) : Option (List Char) := do
  let (first, rest) ← item? m cs
  match m.skip rest with
  | [] => none
  | '-' :: more =>
    if m.next? more = some ']' || m.next? more = some '-' then some ('-' :: more)
    else
      match first, ← item? m (m.skip more) with
      | some low, (some high, rest) => if low ≤ high then some rest else none
      | _, _ => none
  | rest => some rest

structure OpenSet where
  /-- how deep its items nest, since the last operator -/
  items : List Nat := []
  /-- how deep what stands before that operator nests -/
  left : Option Nat := none
  /-- at the beginning a dash is an item, and so is a closing bracket with nothing to close -/
  begins : Bool := true
  deriving DecidableEq, Repr

def OpenSet.depth (s : OpenSet) : Nat :=
  match s.left with
  | none => nesting s.items
  | some left => max left (nesting s.items) + 1

def OpenSet.add (s : OpenSet) (depth : Nat) : OpenSet :=
  { s with items := depth :: s.items, begins := false }

def OpenSet.addCharacters (s : OpenSet) (m : Mode) : Option OpenSet :=
  if m.compares then some (s.add 0) else none

def set? (m : Mode) (fuel : Nat) (around : List OpenSet) (s : OpenSet) (cs : List Char) :
    Option (Nat × List Char) :=
  match fuel with
  | 0 => none
  | fuel + 1 =>
    match m.skip cs with
    | [] => none
    | c :: rest =>
      if s.begins && (c = '-' || (c = ']' && s.items.isEmpty)) then
        match s.addCharacters m with
        | some added => set? m fuel around { added with begins := c = '-' } rest
        | none => none
      else
        match c, rest with
        | '[', rest =>
          match namedClass? rest with
          | some (negated, rest) =>
            if negated && m.isAscii then none
            else
              match s.addCharacters m with
              | some s => set? m fuel around s rest
              | none => none
          | none =>
            match openSet? m rest with
            | some rest => set? m fuel ({ s with begins := false } :: around) {} rest
            | none => none
        | ']', rest =>
          match around with
          | [] => some (s.depth + 1, rest)
          | outer :: around => set? m fuel around (outer.add (s.depth + 1)) rest
        | '&', '&' :: rest | '-', '-' :: rest | '~', '~' :: rest =>
          set? m fuel around { left := some s.depth, begins := false } rest
        | c, rest =>
          match range? m (c :: rest), s.addCharacters m with
          | some rest, some s => set? m fuel around s rest
          | _, _ => none

/-- Reads flags up to the colon or the closing bracket after them, which it gives too. No flag comes
twice, and no minus last. -/
def flags? (m : Mode) (off : Bool) (seen : List Char) :
    List Char → Option (Mode × Char × List Char)
  | [] => none
  | c :: rest =>
    if c = ':' || c = ')' then
      if seen.head? = some '-' || (c = ')' && seen.isEmpty) then none else some (m, c, rest)
    else if seen.contains c then none
    else
      match c with
      | '-' => flags? m true (c :: seen) rest
      | 'i' => flags? { m with ignoresCase := !off } off (c :: seen) rest
      | 'u' => flags? { m with isAscii := off } off (c :: seen) rest
      | 'x' => flags? { m with isVerbose := !off } off (c :: seen) rest
      | 'm' | 's' | 'U' | 'R' => flags? m off (c :: seen) rest
      | _ => none

def name? (cs : List Char) : Option (List Char × List Char) :=
  match cs.takeWhile (· ≠ '>'), cs.dropWhile (· ≠ '>') with
  | first :: others, _ :: rest =>
    if (first = '_' || isAlphabetic first) &&
        others.all (fun c => c = '_' || c = '.' || c = '[' || c = ']' || isLetterOrNumber c) then
      some (first :: others, rest)
    else none
  | _, _ => none

inductive Opening where
  | group (mode : Mode)
  | named (name : List Char)
  /-- no group, but flags for what follows in the one around -/
  | flags (mode : Mode)
  deriving DecidableEq, Repr

def opening? (m : Mode) (cs : List Char) : Option (Opening × List Char) :=
  match m.skip cs with
  | '?' :: 'P' :: '<' :: rest | '?' :: '<' :: rest =>
    (name? rest).map fun (name, rest) => (.named name, rest)
  | '?' :: rest =>
    (flags? m false [] rest).map fun (m, last, rest) =>
      (if last = ')' then .flags m else .group m, rest)
  | rest => some (.group m, rest)

structure OpenGroup where
  mode : Mode := {}
  parts : List Nat := []
  choices : List Nat := []
  repeatable : Bool := false
  deriving DecidableEq, Repr

namespace OpenGroup

def depth (g : OpenGroup) : Nat := nesting (nesting g.parts :: g.choices)

def add (g : OpenGroup) (depth : Nat) : OpenGroup :=
  { g with parts := depth :: g.parts, repeatable := true }

def addFlags (g : OpenGroup) (m : Mode) : OpenGroup :=
  { g with mode := m, parts := 0 :: g.parts, repeatable := false }

def addBar (g : OpenGroup) : OpenGroup :=
  { g with parts := [], choices := nesting g.parts :: g.choices, repeatable := false }

def repeated? (g : OpenGroup) : Option OpenGroup :=
  match g.parts, g.repeatable with
  | depth :: parts, true => some { g with parts := (depth + 1) :: parts }
  | _, _ => none

end OpenGroup

/-- Reads on to the end of a pattern, and gives how deep it nests. The groups that have a name have
different names. -/
def depth? (fuel : Nat) (names : List (List Char)) (around : List OpenGroup) (g : OpenGroup)
    (cs : List Char) : Option Nat :=
  match fuel with
  | 0 => none
  | fuel + 1 =>
    match g.mode.skip cs with
    | [] => if around.isEmpty then some g.depth else none
    | '(' :: rest =>
      match opening? g.mode rest with
      | none => none
      | some (.flags m, rest) => depth? fuel names around (g.addFlags m) rest
      | some (.group m, rest) => depth? fuel names (g :: around) { mode := m } rest
      | some (.named name, rest) =>
        if names.contains name then none
        else depth? fuel (name :: names) (g :: around) { mode := g.mode } rest
    | ')' :: rest =>
      match around with
      | [] => none
      | outer :: around => depth? fuel names around (outer.add (g.depth + 1)) rest
    | '|' :: rest => depth? fuel names around g.addBar rest
    | '*' :: rest | '+' :: rest | '?' :: rest =>
      match g.repeated? with
      | none => none
      | some g =>
        depth? fuel names around g (if rest.head? = some '?' then rest.tail else rest)
    | '{' :: _ => none
    | '[' :: rest =>
      match (openSet? g.mode rest).bind (set? g.mode fuel [] {}) with
      | some (depth, rest) => depth? fuel names around (g.add depth) rest
      | none => none
    | '\\' :: rest =>
      match escape? g.mode rest with
      | some (.character _, rest) =>
        if g.mode.compares then depth? fuel names around (g.add 0) rest else none
      | some (_, rest) => depth? fuel names around (g.add 0) rest
      | none => none
    | '.' :: rest => if g.mode.isAscii then none else depth? fuel names around (g.add 0) rest
    | '^' :: rest | '$' :: rest => depth? fuel names around (g.add 0) rest
    | _ :: rest => if g.mode.compares then depth? fuel names around (g.add 0) rest else none

end Pattern

def isPattern (cs : List Char) : Bool :=
  (Pattern.depth? (cs.length + 1) [] [] {} cs).any (· ≤ Pattern.maxNesting)

end EngineBridge
