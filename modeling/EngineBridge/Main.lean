import EngineBridge.Image.Png
import EngineBridge.Program

/-! The command. It gathers the files that a run may read, runs, and writes what the run has left
behind. -/
namespace EngineBridge.Main

def gather (t : FileTree) (names : List String) : IO FileTree := do
  if names.isEmpty then return t
  let withDirectories := (t.createDirectory names.dropLast).toOption.getD t
  try
    let bytes ← IO.FS.readBinFile ("/" ++ "/".intercalate names)
    return withDirectories.set names (.file (.bytes bytes))
  catch
    | .noFileOrDirectory .. => return t
    | _ => return withDirectories.set names .directory

def gatherAlong (t : FileTree) (place : List String) (path : String) : IO FileTree := do
  let (t, _) ← (path.splitOn "/").foldlM (fun (t, names) part => do
    let names := FileTree.follow names part
    return (← gather t names, names)) (t, FileTree.origin place path)
  return t

def settingsHome : IO (Option String) := do
  match ← IO.getEnv "XDG_CONFIG_HOME" with
  | some path => if path.startsWith "/" then return some path
  | none => pure ()
  return (← IO.getEnv "HOME").map (FileTree.join · ".config")

def surroundings (o : Options) : IO Program.Surroundings := do
  let place := FileTree.names [] (toString (← IO.currentDir))
  let home ← settingsHome
  let files := (({} : FileTree).createDirectory place).toOption.getD {}
  let files ← match o.config, home with
    | some path, _ => gatherAlong files place path
    | none, some home => gatherAlong files place (FileTree.join home Settings.fileName)
    | none, none => pure files
  let w : Program.Surroundings := { place := place, home := home, files := files }
  let s := Program.override ((Program.load o w).2.toOption.getD {}) o
  match s.output.framesDir with
  | some directory => return { w with files := ← gatherAlong files place directory }
  | none => return w

def store (before after : FileTree) : IO Unit := do
  for (names, entry) in after.entries do
    if before.find? names ≠ some entry then
      let path := "/" ++ "/".intercalate names
      match entry with
      | .directory => IO.FS.createDirAll path
      | .file (.bytes bytes) => IO.FS.writeBinFile path bytes
      | .file (.image bitmap) => IO.FS.writeBinFile path (Png.encode bitmap)

end EngineBridge.Main

open EngineBridge in
def main (arguments : List String) : IO UInt32 := do
  let w ← match CommandLine.parse arguments with
    | .ok o => Main.surroundings o
    | .error _ => pure {}
  let outcome := Program.run arguments w
  for note in outcome.notes do
    IO.eprintln note
  IO.print outcome.printed
  try
    Main.store w.files outcome.files
    return outcome.status.toUInt32
  catch e =>
    IO.eprintln s!"bridge error: {e}"
    return 1
