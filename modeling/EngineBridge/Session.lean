import EngineBridge.Call.Engine
import EngineBridge.Desktop.Basic
import EngineBridge.Text.Utf8

/-! What a host keeps of an engine that it runs, and what each call of the engine does to it. -/
namespace EngineBridge

inductive HostEvent where
  | windowsChanged
  | exited (code : Int32)
  | error (message : String)
  | stdout (text : String)
  deriving DecidableEq, Repr

structure Session where
  desktop : Desktop Float
  output : Utf8.Decoder := {}
  exitCode : Option Int32 := none
  records : Array (LogLevel × String) := #[]
  events : Array HostEvent := #[]

namespace Session

def new (displayScale : Float) : Session := { desktop := { displayScale := displayScale } }

def tell (s : Session) (event : HostEvent) : Session :=
  { s with events := s.events.push event }

def tellOutput (s : Session) (text : String) : Session :=
  if text.isEmpty then s else s.tell (.stdout text)

/-- Takes up a desktop that has been acted on. The application is told of each change. -/
def withDesktop (desktop : Desktop Float) (s : Session) : Session :=
  let news := Array.replicate (desktop.changes - s.desktop.changes) HostEvent.windowsChanged
  { s with desktop := desktop, events := s.events ++ news }

def onDesktop (op : WindowOp Float) : Update Session Unit :=
  Update.onPart Session.desktop withDesktop (Desktop.perform op)

def log (s : Session) (level : LogLevel) (message : String) : Session :=
  let s := { s with records := s.records.push (level, message) }
  if level = .error then s.tell (.error message) else s

def write (s : Session) (bytes : ByteArray) : Session :=
  let (output, text) := s.output.decode bytes
  { s with output := output }.tellOutput text

/-- The end of an engine's run, though it may go on to call. Output that ends inside a character
is passed on first. -/
def exit (s : Session) (code : Int32) : Session :=
  let (output, text) := s.output.finish
  ({ s with output := output, exitCode := some code }.tellOutput text).tell (.exited code)

def perform : EngineCall → Update Session Unit
  | .windowCreate handle => onDesktop (.create handle)
  | .windowSetTitle handle title => onDesktop (.setTitle handle title)
  | .windowSetSize handle size => onDesktop (.setSize handle size)
  | .windowShow handle bitmap => onDesktop (.show handle bitmap)
  | .windowDestroy handle => onDesktop (.destroy handle)
  | .log level message => modify (·.log level message)
  | .write bytes => modify (·.write bytes)
  | .exit code => modify (·.exit code)

def handle (frame : String) : Update Session Unit := do
  perform (← Update.ofExcept (EngineCall.ofFrame frame))

def afterFrame (s : Session) (frame : String) : Session := (handle frame).after s

end Session

end EngineBridge
