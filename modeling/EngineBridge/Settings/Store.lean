import EngineBridge.FileTree
import EngineBridge.Settings.FromToml
import EngineBridge.Settings.Template
import EngineBridge.Settings.Validation

/-! Where settings are kept. -/
namespace EngineBridge.Settings

def fileName : String := "emubridge/config.toml"

def ofFile (entry : FileEntry) : Except SettingsError Settings :=
  match entry with
  | .file (.bytes b) =>
    match String.fromUTF8? b with
    | none => .error (.unreadable "the file is not text")
    | some text =>
      match ofToml? text with
      | none => .error (.unreadable "the file is not a settings document")
      | some s => .ok s
  | _ => .error (.unreadable "not a text file")

def read (t : FileTree) (place : List String) (path : String) : Except SettingsError Settings :=
  match t.locate? place path with
  | none => .error (.unreadable "no such file")
  | some entry => ofFile entry

def createTemplate (t : FileTree) (place : List String) (path : String) :
    FileTree × Except SettingsError Unit :=
  match t.makeDirectories place (FileTree.parent path) with
  | (t, .error fault) =>
    (t, .error (.unreadable s!"failed to make the settings directory: {fault.message}"))
  | (t, .ok _) =>
    match t.writeAt place path (.bytes template.toUTF8) with
    | .ok t => (t, .ok ())
    | .error fault =>
      (t, .error (.unreadable s!"failed to write the settings: {fault.message}"))

def loadGiven (t : FileTree) (place : List String) (path : String) :
    Except SettingsError Settings := do
  if (t.locate? place path).isNone then throw (.notFound path)
  let s ← read t place path
  s.validate
  return s

/-- The settings at the usual place. The first use puts the template there. -/
def loadUsual (t : FileTree) (home : String) : FileTree × Except SettingsError Settings :=
  let path := FileTree.join home fileName
  match t.locate? [] path with
  | some entry =>
    (t, do
      let s ← ofFile entry
      s.validate
      return s)
  | none =>
    let (t, result) := createTemplate t [] path
    (t, result.map fun _ => {})

end EngineBridge.Settings
