import EngineBridge.LogLevel
import EngineBridge.Settings.Basic
import EngineBridge.Settings.Document
import EngineBridge.Drawing.Size

/-! Settings, and the small types that cross the bridge, read from documents. -/
namespace EngineBridge

open Document

section

variable {ν : Type} [Document ν]

def DisplaySettings.fields : List (Field ν DisplaySettings) :=
  [field "scale_factor" number? (fun x s => { s with scaleFactor := x })]

def OutputSettings.fields : List (Field ν OutputSettings) :=
  [field "frames_dir" (optional? text?) (fun x s => { s with framesDir := x }),
    field "echo_stdout" flag? (fun x s => { s with echoStdout := x })]

def DemoProgram.ofDocument? (v : ν) : Option DemoProgram := (choice? v).bind ofName?

def EngineSettings.fields : List (Field ν EngineSettings) :=
  [field "program" DemoProgram.ofDocument? (fun x s => { s with program := x }),
    field "frames" word? (fun x s => { s with frames := x }),
    field "width" word? (fun x s => { s with width := x }),
    field "height" word? (fun x s => { s with height := x })]

def LoggingSettings.fields : List (Field ν LoggingSettings) :=
  [field "level" text? (fun x s => { s with level := x }),
    field "engine_level" text? (fun x s => { s with engineLevel := x })]

/-- A section starts from its defaults, whatever the record around it holds. -/
def Settings.fields : List (Field ν Settings) :=
  [field "display" (readRecord DisplaySettings.fields {}) (fun x s => { s with display := x }),
    field "output" (readRecord OutputSettings.fields {}) (fun x s => { s with output := x }),
    field "engine" (readRecord EngineSettings.fields {}) (fun x s => { s with engine := x }),
    field "logging" (readRecord LoggingSettings.fields {}) (fun x s => { s with logging := x })]

def Settings.ofDocument? (v : ν) : Option Settings := readRecord Settings.fields {} v

def sides? (v : ν) : Option (UInt32 × UInt32) := do
  let fields : List (Field ν (Option UInt32 × Option UInt32)) :=
    [field "width" word? (fun x s => (some x, s.2)),
      field "height" word? (fun x s => (s.1, some x))]
  let (width, height) ← readRecord fields (none, none) v
  return (← width, ← height)

def LogicalSize.ofDocument? (v : ν) : Option LogicalSize :=
  (sides? v).map fun (width, height) => ⟨width, height⟩

def PhysicalSize.ofDocument? (v : ν) : Option PhysicalSize :=
  (sides? v).map fun (width, height) => ⟨width, height⟩

def LogLevel.ofDocument? (v : ν) : Option LogLevel := (choice? v).bind LogLevel.ofLabel?

end

end EngineBridge
