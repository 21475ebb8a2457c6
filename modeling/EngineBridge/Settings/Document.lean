import EngineBridge.Number.Word

/-! Records read from documents. A document may be in any format that has tables and lists; the
rules by which a table or list becomes a record are the same in all of them. -/
namespace EngineBridge

class Document (ν : Type) where
  fields? : ν → Option (List (String × ν))
  items? : ν → Option (List ν)
  text? : ν → Option String
  flag? : ν → Option Bool
  int? : ν → Option Int
  number? : ν → Option Float
  isAbsent : ν → Bool
  /-- whether the value carries no information, and so may stand beside the name of a choice -/
  isTrivial : ν → Bool
  /-- whether a list may be longer than the record that it is read as -/
  allowsSurplus : Bool

namespace Document

variable {ν σ : Type} [Document ν]

def word? (v : ν) : Option UInt32 := (int? v).bind Word.unsigned?

def choice? (v : ν) : Option String :=
  match text? v with
  | some name => some name
  | none =>
    match fields? v with
    | some [(name, inner)] => if isTrivial inner then some name else none
    | _ => none

def optional? {α : Type} (read : ν → Option α) (v : ν) : Option (Option α) :=
  if isAbsent v then some none else (read v).map some

/-- A named part of a record, and how its value changes the record. -/
structure Field (ν σ : Type) where
  name : String
  read : ν → σ → Option σ

def field {α : Type} (name : String) (read : ν → Option α) (set : α → σ → σ) : Field ν σ :=
  ⟨name, fun v s => (read v).map (set · s)⟩

def readItems (fields : List (Field ν σ)) (items : List ν) (start : σ) : Option σ :=
  if fields.length < items.length && !allowsSurplus ν then none
  else (fields.zip items).foldlM (fun s (f, v) => f.read v s) start

/-- Reads the fields that a table has. Names that the record lacks are passed over, and none of its
own may repeat. -/
def readFields (fields : List (Field ν σ)) (named : List (String × ν)) (start : σ) : Option σ :=
  let known := named.filterMap fun (name, v) =>
    (fields.find? (fun f => f.name = name)).map (·, v)
  if (known.map (·.1.name)).Nodup then known.foldlM (fun s (f, v) => f.read v s) start
  else none

/-- Reads a record from a list or a table. What is missing stays as in `start`. -/
def readRecord (fields : List (Field ν σ)) (start : σ) (v : ν) : Option σ :=
  match items? v with
  | some items => readItems fields items start
  | none => (fields? v).bind (readFields fields · start)

end Document

end EngineBridge
