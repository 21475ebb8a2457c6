import EngineBridge.Error
import EngineBridge.Json.Tree
import EngineBridge.Json.Writer

/-! The frames that cross the link: JSON text that names a method and lists its arguments.

A frame is an object with the fields `method` and, unless there are no arguments, `args`, in any
order and among any others, or a list of the method and then the arguments. -/
namespace EngineBridge

structure Message where
  method : String
  args : List Json := []
  deriving BEq, Repr, Inhabited

namespace Message

/-- How deep a frame may nest, with the frame itself and its list of arguments. -/
def maxDepth : Nat := 127

def render (m : Message) : String :=
  (Json.object [("method", .text m.method), ("args", .list m.args)]).render

def withArgs? (method : String) (items : List Json.Tree) : Option Message :=
  (Json.Tree.values? (maxDepth - 2) items).map (⟨method, ·⟩)

def named (name : String) (fields : List (Option String × Json.Tree)) : List Json.Tree :=
  fields.filterMap fun (other, tree) => if other = some name then some tree else none

/-- Neither field may repeat. Of the other fields only the names are looked at, and those only for
being text. -/
def ofTree? : Json.Tree → Option Message
  | .object fields =>
    if fields.all (·.1.isSome) then
      match named "method" fields, named "args" fields with
      | [.text (some method)], [] => some ⟨method, []⟩
      | [.text (some method)], [.list items] => withArgs? method items
      | _, _ => none
    else none
  | .list [.text (some method)] => some ⟨method, []⟩
  | .list [.text (some method), .list items] => withArgs? method items
  | _ => none

def ofText? (text : String) : Option Message :=
  (Json.Tree.ofText? text).bind ofTree?

def parse (text : String) : Except Violation Message :=
  match ofText? text with
  | some m => .ok m
  | none => .error (.malformed "not a frame")

end Message

end EngineBridge
