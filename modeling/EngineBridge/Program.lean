import EngineBridge.Application
import EngineBridge.CommandLine
import EngineBridge.Console
import EngineBridge.Export
import EngineBridge.LogFilter
import EngineBridge.Settings.Store

/-! The whole program as a function of its arguments and of the files that it finds. -/
namespace EngineBridge

namespace Program

def version : String := "0.1.0"

structure Surroundings where
  place : List String := []
  /-- the path from the root to the place of the user's settings, if that is known -/
  home : Option String := none
  files : FileTree := {}

structure Outcome where
  status : UInt8
  printed : String := ""
  notes : List String := []
  files : FileTree

def help : String :=
  String.join (List.map (· ++ "\n") [
    "emubridge: run an emulation engine behind the host bridge",
    "",
    "Usage: emubridge [OPTIONS]",
    "",
    "Options:",
    "      --config <CONFIG>              Config file path override",
    "      --log-level <LOG_LEVEL>        Log filter directive, " ++
      "e.g. \"emubridge=debug,engine=warn\"",
    "      --scale-factor <SCALE_FACTOR>  Physical pixels per logical unit",
    "      --frames-dir <FRAMES_DIR>      Write each window's final surface as a PNG " ++
      "into this directory",
    "  -h, --help                         Print help",
    "  -V, --version                      Print version"])

/-- The status for an engine's exit code. A code that is no status is a failure. -/
def exitStatus (code : Int32) : UInt8 :=
  if 0 ≤ code.toInt ∧ code.toInt ≤ 255 then .ofNat code.toInt.toNat else 1

structure Report where
  result : Except Failure Int32
  printed : String
  files : FileTree

/-- What is reported of a session that is over: if it went well, the final images are written first
if there is a place for them. -/
def report (s : Settings) (place : List String) (files : FileTree) (session : Session)
    (result : Except Failure Unit) : Report :=
  let printed := (Console.ofEvents s.output.echoStdout session.events).printed
  let (files, written) : FileTree × Except Failure Unit :=
    match result, s.output.framesDir with
    | .error failure, _ => (files, .error failure)
    | .ok (), none => (files, .ok ())
    | .ok (), some directory =>
      Export.write (Export.ofDesktop session.desktop) place directory files
  ⟨written.map fun _ => session.exitCode.getD 0, printed, files⟩

def serve (s : Settings) (place : List String) (files : FileTree) : Report :=
  let (session, result) := Application.run s
  report s place files session result

def load (o : Options) (w : Surroundings) : FileTree × Except SettingsError Settings :=
  match o.config, w.home with
  | some path, _ => (w.files, Settings.loadGiven w.files w.place path)
  | none, some home => Settings.loadUsual w.files home
  | none, none => (w.files, .error (.unreadable "there is no place for settings"))

def override (s : Settings) (o : Options) : Settings :=
  { s with
    display := { scaleFactor := o.scaleFactor.getD s.display.scaleFactor }
    output := { s.output with framesDir := o.framesDir <|> s.output.framesDir } }

def filter (o : Options) (loaded : Except SettingsError Settings) : String :=
  o.logLevel.getD (loaded.toOption.getD {}).logging.directive

/-- Runs with some options. Settings that cannot be loaded give way to the defaults. -/
def runWith (o : Options) (w : Surroundings) : Outcome :=
  let (files, loaded) := load o w
  let rejected := (LogFilter.rejected (filter o loaded)).map fun part =>
    s!"ignoring invalid log directive: {part}"
  let failed := match loaded with
    | .ok _ => []
    | .error e => [s!"config load failed, using defaults: {e.message}"]
  let notes := rejected ++ failed
  let s := override (loaded.toOption.getD {}) o
  match s.validate with
  | .error e =>
    { status := 2, notes := notes ++ [s!"invalid settings: {e.message}"], files := files }
  | .ok () =>
    let report := serve s w.place files
    match report.result with
    | .ok code =>
      { status := exitStatus code, printed := report.printed, notes := notes
        files := report.files }
    | .error failure =>
      { status := 1, printed := report.printed, files := report.files
        notes := notes ++ [s!"bridge error: {failure.message}"] }

def run (arguments : List String) (w : Surroundings) : Outcome :=
  match CommandLine.parse arguments with
  | .ok o => runWith o w
  | .error .help => { status := 0, printed := help, files := w.files }
  | .error .version => { status := 0, printed := s!"emubridge {version}\n", files := w.files }
  | .error stop => { status := 2, notes := [s!"error: {stop.message}"], files := w.files }

end Program

end EngineBridge
