/-! JSON values as the bridge exchanges them. -/
namespace EngineBridge

/-- Integers and binary floats are kept apart: a number written with a fraction or an exponent is
never an integer. The fields of an object stand in ascending order of their names, each once. -/
inductive Json where
  | null
  | bool (b : Bool)
  | int (n : Int)
  | float (x : Float)
  | text (s : String)
  | list (items : List Json)
  | object (fields : List (String × Json))
  deriving BEq, Repr, Inhabited

namespace Json

def setField (name : String) (value : Json) : List (String × Json) → List (String × Json)
  | [] => [(name, value)]
  | (other, v) :: rest =>
    if name < other then (name, value) :: (other, v) :: rest
    else if name = other then (name, value) :: rest
    else (other, v) :: setField name value rest

def ofFields (fields : List (String × Json)) : Json :=
  .object (fields.foldl (fun done (name, value) => setField name value done) [])

def field? (name : String) : Json → Option Json
  | .object fields => fields.lookup name
  | _ => none

def asInt? : Json → Option Int
  | .int n => some n
  | _ => none

def asText? : Json → Option String
  | .text s => some s
  | _ => none

end Json

end EngineBridge
