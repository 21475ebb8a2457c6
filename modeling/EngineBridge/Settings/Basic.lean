import EngineBridge.Json.Writer

/-! What a user can set. Every setting has a default. -/
namespace EngineBridge

inductive DemoProgram where
  | hello
  | gradient
  deriving DecidableEq, Repr, Inhabited

namespace DemoProgram

def all : List DemoProgram := [.hello, .gradient]

def name : DemoProgram → String
  | .hello => "hello"
  | .gradient => "gradient"

def ofName? (name : String) : Option DemoProgram := all.find? (fun p => p.name = name)

end DemoProgram

structure DisplaySettings where
  scaleFactor : Float := 1
  deriving DecidableEq, Repr

structure OutputSettings where
  framesDir : Option String := none
  echoStdout : Bool := true
  deriving DecidableEq, Repr

structure EngineSettings where
  program : DemoProgram := .hello
  frames : UInt32 := 3
  width : UInt32 := 320
  height : UInt32 := 200
  deriving DecidableEq, Repr

structure LoggingSettings where
  level : String := "info"
  engineLevel : String := "debug"
  deriving DecidableEq, Repr

structure Settings where
  display : DisplaySettings := {}
  output : OutputSettings := {}
  engine : EngineSettings := {}
  logging : LoggingSettings := {}
  deriving DecidableEq, Repr

def LoggingSettings.directive (l : LoggingSettings) : String :=
  s!"emubridge={l.level},engine={l.engineLevel}"

def Settings.toJson (s : Settings) : Json :=
  .object [
    ("display", .object [("scale_factor", .float s.display.scaleFactor)]),
    ("output", .object [
      ("frames_dir", match s.output.framesDir with
        | some dir => .text dir
        | none => .null),
      ("echo_stdout", .bool s.output.echoStdout)]),
    ("engine", .object [
      ("program", .text s.engine.program.name),
      ("frames", .int s.engine.frames.toNat),
      ("width", .int s.engine.width.toNat),
      ("height", .int s.engine.height.toNat)]),
    ("logging", .object [
      ("level", .text s.logging.level),
      ("engine_level", .text s.logging.engineLevel)])]

end EngineBridge
