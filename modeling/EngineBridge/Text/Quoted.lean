import EngineBridge.Text.Hidden

/-! Text in messages, in quotes and with whatever a reader could not tell apart written out. -/
namespace EngineBridge.Quoted

def escape (c : Char) : List Char :=
  match c with
  | '"' => ['\\', '"']
  | '\\' => ['\\', '\\']
  | '\n' => ['\\', 'n']
  | '\r' => ['\\', 'r']
  | '\t' => ['\\', 't']
  | '\x00' => ['\\', '0']
  | _ =>
    if isHidden c then '\\' :: 'u' :: '\x7b' :: Nat.toDigits 16 c.toNat ++ ['\x7d'] else [c]

def quote (s : String) : String :=
  .ofList ('"' :: s.toList.flatMap escape ++ ['"'])

end EngineBridge.Quoted
