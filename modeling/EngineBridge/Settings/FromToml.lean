import EngineBridge.Settings.Reader
import EngineBridge.Toml.Statement

/-! TOML as a format of documents. -/
namespace EngineBridge

/-- The field of a date or time read as a table, which no record has. -/
def Toml.momentField : String := "$moment"

/-- A list may be longer than its record, and the surplus is passed over. No value stands for the
lack of one; beside the name of a choice stands something empty. -/
instance : Document Toml where
  fields?
    | .table fields => some fields
    | .moment written => some [(Toml.momentField, .text written)]
    | _ => none
  items?
    | .list items => some items
    | _ => none
  text?
    | .text s => some s
    | _ => none
  flag?
    | .bool b => some b
    | _ => none
  int?
    | .int n => some n
    | _ => none
  number?
    | .int n => some (.ofInt n)
    | .float x => some x
    | _ => none
  isAbsent _ := false
  isTrivial
    | .table fields => fields.isEmpty
    | .list items => items.isEmpty
    | _ => false
  allowsSurplus := true

def Settings.ofToml? (text : String) : Option Settings :=
  (Toml.ofText? text).bind Settings.ofDocument?

end EngineBridge
