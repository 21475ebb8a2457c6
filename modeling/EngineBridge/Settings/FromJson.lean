import EngineBridge.Json.Tree
import EngineBridge.Settings.Reader

/-! JSON as a format of documents. -/
namespace EngineBridge

def Json.Numeral.asFloat? (n : Json.Numeral) : Option Float :=
  match n.value? with
  | some (.int i) => some (.ofInt i)
  | some (.float x) => some x
  | _ => none

/-- A list is never longer than its record. `null` stands for no value, and for the one value of a
choice that carries nothing. -/
instance : Document Json.Tree where
  fields?
    | .object fields => fields.mapM fun (name, v) => name.map (·, v)
    | _ => none
  items?
    | .list items => some items
    | _ => none
  text?
    | .text s => s
    | _ => none
  flag?
    | .bool b => some b
    | _ => none
  int?
    | .number n => n.value?.bind Json.asInt?
    | _ => none
  number?
    | .number n => n.asFloat?
    | _ => none
  isAbsent
    | .null => true
    | _ => false
  isTrivial
    | .null => true
    | _ => false
  allowsSurplus := false

def Settings.ofJson? (text : String) : Option Settings :=
  (Json.Tree.ofText? text).bind Settings.ofDocument?

end EngineBridge
