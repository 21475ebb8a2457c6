import EngineBridge.Error

/-! The severities of an engine's log messages. On the wire they are the ordinals 1 to 5. -/
namespace EngineBridge

inductive LogLevel where
  | debug
  | log
  | info
  | warn
  | error
  deriving DecidableEq, Repr, Inhabited

namespace LogLevel

def all : List LogLevel := [.debug, .log, .info, .warn, .error]

def ordinal : LogLevel → Int
  | .debug => 1
  | .log => 2
  | .info => 3
  | .warn => 4
  | .error => 5

def ofOrdinal (n : Int) : Except Violation LogLevel :=
  match all.find? (fun level => level.ordinal = n) with
  | some level => .ok level
  | none => .error (.unknownLevel n)

def label : LogLevel → String
  | .debug => "debug"
  | .log => "log"
  | .info => "info"
  | .warn => "warn"
  | .error => "error"

def ofLabel? (label : String) : Option LogLevel :=
  all.find? (fun level => level.label = label)

end LogLevel

end EngineBridge
