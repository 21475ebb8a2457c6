import EngineBridge.Session

/-! The application around the bridge when it runs in a terminal: it prints the engine's output
and remembers the rest of what it is told. -/
namespace EngineBridge

structure Console where
  echo : Bool
  windowChanges : Nat := 0
  errors : Array String := #[]
  exitCode : Option Int32 := none
  printed : String := ""

namespace Console

def tell (c : Console) : HostEvent → Console
  | .windowsChanged => { c with windowChanges := c.windowChanges + 1 }
  | .exited code => { c with exitCode := some code }
  | .error message => { c with errors := c.errors.push message }
  | .stdout text => if c.echo then { c with printed := c.printed ++ text } else c

def ofEvents (echo : Bool) (events : Array HostEvent) : Console :=
  events.foldl tell { echo := echo }

end Console

end EngineBridge
