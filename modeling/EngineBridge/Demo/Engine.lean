import EngineBridge.Demo.Picture
import EngineBridge.Link.Basic

/-! The built-in engine: it says that it is ready, waits to be started, opens a window, shows its
frames, prints a line with each, and exits.

What it does is a list of actions, fixed by its settings. How they interleave with those of its
host is left to whoever runs it. -/
namespace EngineBridge.Demo

inductive Action where
  | announce
  | awaitStart
  | send (call : EngineCall)
  | paint (frame : UInt32)
  | rest

def window : UInt32 := 1

def title : DemoProgram → String
  | .hello => "Hello"
  | .gradient => "Gradient"

/-- Where a text is cut: inside its last character of several bytes, after the first of them, and
at the end if it has none. -/
def cut (text : String) : Nat :=
  let after := text.toList.reverse.takeWhile (fun c => c.utf8Size ≤ 1)
  let before := text.utf8ByteSize - after.length
  match text.toList.reverse.drop after.length with
  | c :: _ => before - c.utf8Size + 1
  | [] => text.utf8ByteSize

def pieces (text : String) : List ByteArray :=
  let bytes := text.toUTF8
  let first := bytes.extract 0 (cut text)
  if cut text < bytes.size then [first, bytes.extract (cut text) bytes.size] else [first]

def line (program : DemoProgram) (frame : Nat) : String :=
  s!"{title program}: frame {frame} ✓\n"

def frameActions (e : EngineSettings) (i : Nat) : List Action :=
  .paint (.ofNat i)
    :: (pieces (line e.program (i + 1))).map (fun bytes => .send (.write bytes))
    ++ [.send (.log .debug s!"presented frame {i + 1}"), .rest]

def script (e : EngineSettings) : List Action :=
  [.announce, .awaitStart,
    .send (.windowCreate window),
    .send (.windowSetTitle window (title e.program)),
    .send (.windowSetSize window ⟨e.width, e.height⟩)]
    ++ (List.range e.frames.toNat).flatMap (frameActions e)
    ++ [.send (.log .info s!"{e.frames} frames rendered"), .send (.exit 0)]

def readyFrame : String := (Message.mk "ready" []).render

inductive Outcome where
  | completed (link : Link)
  | blocked
  | stops (result : Except Failure Unit)

def Outcome.ofSend : Except Failure Link → Outcome
  | .ok link => .completed link
  | .error failure => .stops (.error failure)

/-- Does an action. An engine that waits for its start stops at anything else, in peace if it will
never come. -/
def Action.perform (e : EngineSettings) (link : Link) : Action → Outcome
  | .announce => .ofSend (link.post readyFrame)
  | .awaitStart =>
    match link.nextHostCall with
    | (.item (.ok .start), link) => .completed link
    | (.item (.error v), _) => .stops (.error (.violation v))
    | (.pending, _) => .blocked
    | (.closed, _) => .stops (.ok ())
  | .send call => .ofSend (link.send call)
  | .paint frame =>
    match e.program.render e.width e.height frame with
    | .ok bitmap => .ofSend (link.send (.windowShow window bitmap))
    | .error v => .stops (.error (.violation v))
  | .rest => .completed link

inductive Status where
  | running (todo : List Action)
  | stopped (result : Except Failure Unit)

def Status.initial (e : EngineSettings) : Status := .running (script e)

def step (e : EngineSettings) (link : Link) : Status → Status × Link
  | .running [] => (.stopped (.ok ()), link.dropEngine)
  | .running (action :: todo) =>
    match action.perform e link with
    | .completed link => (.running todo, link)
    | .blocked => (.running (action :: todo), link)
    | .stops result => (.stopped result, link.dropEngine)
  | .stopped result => (.stopped result, link)

/-- The actions of an engine up to the next rest, the first vain wait, or the end. -/
def turn (e : EngineSettings) (link : Link) : List Action → Status × Link
  | [] => step e link (.running [])
  | .rest :: todo => (.running todo, link)
  | action :: todo =>
    match action.perform e link with
    | .completed link => turn e link todo
    | .blocked => (.running (action :: todo), link)
    | .stops result => (.stopped result, link.dropEngine)

end EngineBridge.Demo
