import EngineBridge.Bridge
import EngineBridge.Demo.Engine

/-! A built-in engine together with the host that runs it. The two move in any order, one action
or one frame at a time, and meet only in their link. -/
namespace EngineBridge

inductive HostPhase where
  | awaitingEngine
  | starting
  | serving
  | ended (result : Except Failure Unit)

structure Application where
  engine : Demo.Status
  host : HostPhase := .awaitingEngine
  bridge : Bridge

inductive Mover where
  | engine
  | host
  deriving DecidableEq, Repr

namespace Application

def initial (s : Settings) : Application :=
  { engine := .initial s.engine, bridge := { session := .new s.display.scaleFactor } }

def hostEnds (a : Application) (result : Except Failure Unit) : Application :=
  { a with host := .ended result, bridge := { a.bridge with link := a.bridge.link.dropHost } }

def moveHost (a : Application) : Application :=
  match a.host with
  | .awaitingEngine =>
    match a.bridge.link.awaitReady with
    | .item link => { a with host := .starting, bridge := { a.bridge with link := link } }
    | .pending => a
    | .closed => a.hostEnds (.error .linkClosed)
  | .starting =>
    match a.bridge.start with
    | .ok bridge => { a with host := .serving, bridge := bridge }
    | .error failure => a.hostEnds (.error failure)
  | .serving =>
    match a.bridge.handleNext with
    | (.item (.ok ()), bridge) => { a with bridge := bridge }
    | (.item (.error v), bridge) => { a with bridge := bridge }.hostEnds (.error (.violation v))
    | (.pending, _) => a
    | (.closed, _) => a.hostEnds (.ok ())
  | .ended _ => a

def moveEngine (e : EngineSettings) (a : Application) : Application :=
  let (engine, link) := Demo.step e a.bridge.link a.engine
  { a with engine := engine, bridge := { a.bridge with link := link } }

def move (e : EngineSettings) (a : Application) : Mover → Application
  | .engine => a.moveEngine e
  | .host => a.moveHost

def play (e : EngineSettings) (a : Application) (schedule : List Mover) : Application :=
  schedule.foldl (move e) a

/-- Both in turn, so often that the engine can do all that it has to do: besides, it waits once in
vain and finds once that nothing is left. -/
def schedule (e : EngineSettings) : List Mover :=
  (List.range ((Demo.script e).length + 2)).flatMap fun _ => [.engine, .host]

def run (s : Settings) : Session × Except Failure Unit :=
  let a := (initial s).play s.engine (schedule s.engine)
  match a.host with
  | .ended result => (a.bridge.session, result)
  | _ => (a.bridge.session, .ok ())

end Application

end EngineBridge
