import EngineBridge.Toml.Value

/-! Tables under construction. A table may be mentioned before it is defined and be added to after
it, but each part has one definition. -/
namespace EngineBridge.Toml

/-- How a table came about. One that only the header of a table inside it has named may still get
a header of its own, and only dotted keys may add to one that they made. -/
inductive Origin where
  | header
  | inner
  | dotted
  deriving DecidableEq, Repr

inductive Part where
  | value (v : Toml)
  | table (origin : Origin) (parts : List (String × Part))
  /-- a list of tables, the latest first -/
  | tables (entries : List (List (String × Part)))

abbrev Parts := List (String × Part)

namespace Parts

def alter (key : String) (change : Option Part → Option Part) : Parts → Option Parts
  | [] => (change none).map fun part => [(key, part)]
  | (name, part) :: rest =>
    if name = key then (change (some part)).map fun part => (name, part) :: rest
    else (alter key change rest).map ((name, part) :: ·)

/-- Puts a value where a dotted key says. The keys on the way name tables made by dotted keys; only
the last of them has to be one itself. -/
def assign (v : Toml) : List String → Parts → Option Parts
  | [], _ => none
  | [key], t => alter key (fun
      | none => some (.value v)
      | some _ => none) t
  | key :: more, t => alter key (fun
      | none => (assign v more []).map (.table .dotted)
      | some (.table .dotted inner) => (assign v more inner).map (.table .dotted)
      | some (.table .inner inner) =>
        if more.length = 1 then none else (assign v more inner).map (.table .inner)
      | some (.tables (last :: earlier)) =>
        if more.length = 1 then none
        else (assign v more last).map fun last => .tables (last :: earlier)
      | some _ => none) t

/-- Changes the table that a header's keys lead to. Of a list of tables they mean the latest. -/
def reach (change : Parts → Option Parts) : List String → Parts → Option Parts
  | [], t => change t
  | key :: more, t => alter key (fun
      | none => (reach change more []).map (.table .inner)
      | some (.table origin inner) => (reach change more inner).map (.table origin)
      | some (.tables (last :: earlier)) =>
        (reach change more last).map fun last => .tables (last :: earlier)
      | some _ => none) t

def define (key : String) : Parts → Option Parts :=
  alter key fun
    | none => some (.table .header [])
    | some (.table .inner inner) => some (.table .header inner)
    | some _ => none

def append (key : String) : Parts → Option Parts :=
  alter key fun
    | none => some (.tables [[]])
    | some (.tables entries) => some (.tables ([] :: entries))
    | some _ => none

end Parts

mutual

def Part.toToml : Part → Toml
  | .value v => v
  | .table _ parts => .table (partsToToml parts)
  | .tables entries => .list (entriesToToml [] entries)

def partsToToml : List (String × Part) → List (String × Toml)
  | [] => []
  | (key, part) :: rest => (key, part.toToml) :: partsToToml rest

def entriesToToml (later : List Toml) : List (List (String × Part)) → List Toml
  | [] => later
  | parts :: rest => entriesToToml (.table (partsToToml parts) :: later) rest

end

end EngineBridge.Toml
