import EngineBridge.Call.Engine
import EngineBridge.Call.Host
import EngineBridge.Link.Pipe

/-! The link between an engine and its host: a pipe each way, and nothing else between the two. -/
namespace EngineBridge

structure Link where
  toHost : Pipe := {}
  toEngine : Pipe := {}
  deriving DecidableEq, Repr

namespace Link

def post (l : Link) (frame : String) : Except Failure Link := do
  return { l with toHost := ← l.toHost.send frame }

def send (l : Link) (call : EngineCall) : Except Failure Link := l.post call.frame

def nextHostCall (l : Link) : Received (Except Violation HostCall) × Link :=
  match l.toEngine.receive with
  | (.item frame, p) => (.item (HostCall.ofFrame frame), { l with toEngine := p })
  | (.pending, p) => (.pending, { l with toEngine := p })
  | (.closed, p) => (.closed, { l with toEngine := p })

def dropEngine (l : Link) : Link :=
  { toHost := l.toHost.dropSender, toEngine := l.toEngine.dropReceiver }

def call (l : Link) (m : Message) : Except Failure Link := do
  return { l with toEngine := ← l.toEngine.send m.render }

def start (l : Link) : Except Failure Link := l.call HostCall.start.encode

def dropHost (l : Link) : Link :=
  { toHost := l.toHost.dropReceiver, toEngine := l.toEngine.dropSender }

/-- The host's wait for the engine: its first frame only says that it is ready, whatever the frame
is. -/
def awaitReady (l : Link) : Received Link :=
  match l.toHost.receive with
  | (.item _, p) => .item { l with toHost := p }
  | (.pending, _) => .pending
  | (.closed, _) => .closed

end Link

end EngineBridge
