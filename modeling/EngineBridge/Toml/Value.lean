/-! TOML values and the tables that they stand in. -/
namespace EngineBridge

inductive Toml where
  | text (s : String)
  | int (n : Int)
  | float (x : Float)
  | bool (b : Bool)
  | moment (written : String)
  | list (items : List Toml)
  | table (fields : List (String × Toml))
  deriving Repr, Inhabited

end EngineBridge
