import EngineBridge.Desktop.Basic
import EngineBridge.FileTree

/-! The final images of windows, one file for each that has any pixels. -/
namespace EngineBridge

structure Export where
  handle : UInt32
  image : Bitmap
  deriving DecidableEq

namespace Export

variable {α : Type}

def fileName (handle : UInt32) : String := s!"window-{handle}.png"

def name (e : Export) : String := fileName e.handle

def path (directory : String) (e : Export) : String := FileTree.join directory e.name

def ofWindow? (w : Window α) : Option Export :=
  if w.canvas.surface.width = 0 || w.canvas.surface.height = 0 then none
  else some ⟨w.handle, w.canvas.surface⟩

def ofDesktop (d : Desktop α) : List Export :=
  (d.handles.filterMap d.get?).filterMap ofWindow?

def put (store : Bitmap → Except String FileContent) (directory : String) (names : List String)
    (t : FileTree) (e : Export) : Except Failure FileTree := do
  let content ← (store e.image).mapError fun reason => .image s!"window {e.handle}: {reason}"
  Except.mapError (fun (fault : FileFault) => Failure.file fault.message) do
    FileTree.check (e.path directory)
    t.write (← t.enter names e.name) content

/-- Writes images into the directory at a path, which is made if it is missing, and gives the paths
of the files. What was written before a failure stays. -/
def writeAll (store : Bitmap → Except String FileContent) (exports : List Export)
    (place : List String) (directory : String) (t : FileTree) :
    FileTree × Except Failure (List String) :=
  match t.makeDirectories place directory with
  | (t, .error fault) => (t, .error (.file fault.message))
  | (t, .ok names) =>
    let (t, result) := t.each (put store directory names) exports
    (t, result.map fun _ => exports.map (path directory))

def keep (b : Bitmap) : Except String FileContent := .ok (.image b)

def write (exports : List Export) (place : List String) (directory : String) (t : FileTree) :
    FileTree × Except Failure Unit :=
  let (t, paths) := writeAll keep exports place directory t
  (t, paths.map fun _ => ())

def writeDesktop (store : Bitmap → Except String FileContent) (d : Desktop α)
    (place : List String) (directory : String) (t : FileTree) :
    FileTree × Except Failure (List String) :=
  writeAll store (ofDesktop d) place directory t

end Export

end EngineBridge
