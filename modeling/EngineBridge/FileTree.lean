import EngineBridge.Drawing.Bitmap

/-! Files and directories as a value. A program that is given such a tree and returns one has told
everything that it reads and writes. A path is followed part by part, so that a detour through a
directory that is missing leads nowhere. -/
namespace EngineBridge

/-- What a file holds. An image is kept as such; how it is stored is up to whoever writes it. -/
inductive FileContent where
  | bytes (b : ByteArray)
  | image (b : Bitmap)
  deriving DecidableEq

inductive FileEntry where
  | directory
  | file (content : FileContent)
  deriving DecidableEq

inductive FileFault where
  | unfit
  | missing
  | notDirectory
  | isDirectory
  | taken
  deriving DecidableEq, Repr

def FileFault.message : FileFault → String
  | .unfit => "not a path"
  | .missing => "no such file or directory"
  | .notDirectory => "not a directory"
  | .isDirectory => "is a directory"
  | .taken => "a file is in the way of a directory"

/-- Entries by the names that lead to them from the root, which is a directory without an entry. -/
structure FileTree where
  entries : List (List String × FileEntry) := []
  deriving DecidableEq

namespace FileTree

def origin (place : List String) (path : String) : List String :=
  if path.startsWith "/" then [] else place

/-- Where a part of a path leads. The name `..` goes back to where the name before it came from. -/
def follow (names : List String) (part : String) : List String :=
  if part = "" || part = "." then names
  else if part = ".." then names.dropLast
  else names ++ [part]

def names (place : List String) (path : String) : List String :=
  (path.splitOn "/").foldl follow (origin place path)

def join (directory name : String) : String :=
  if directory = "" || directory.endsWith "/" then directory ++ name else directory ++ "/" ++ name

def steps (path : String) : List String :=
  (path.splitOn "/").filter fun part => part ≠ "" && part ≠ "."

def parent (path : String) : String :=
  (if path.startsWith "/" then "/" else "") ++ "/".intercalate (steps path).dropLast

def find? (t : FileTree) (names : List String) : Option FileEntry :=
  if names.isEmpty then some .directory else t.entries.lookup names

/-- Follows a part of a path from a directory. A name has at most 255 bytes. -/
def enter (t : FileTree) (names : List String) (part : String) : Except FileFault (List String) :=
  match t.find? names with
  | none => .error .missing
  | some (.file _) => .error .notDirectory
  | some .directory => if 255 < part.utf8ByteSize then .error .unfit else .ok (follow names part)

/-- A path has less than 4096 bytes, none of them zero. The empty path leads nowhere. -/
def check (path : String) : Except FileFault Unit :=
  if path = "" then .error .missing
  else if 4096 ≤ path.utf8ByteSize || path.contains '\x00' then .error .unfit
  else .ok ()

/-- The names that a path leads to. What they lead to may be missing, but not its directory. -/
def resolve (t : FileTree) (place : List String) (path : String) :
    Except FileFault (List String) := do
  check path
  (path.splitOn "/").foldlM t.enter (origin place path)

def locate? (t : FileTree) (place : List String) (path : String) : Option FileEntry :=
  (t.resolve place path).toOption.bind t.find?

def set (t : FileTree) (names : List String) (entry : FileEntry) : FileTree :=
  ⟨t.entries.filter (fun e => e.1 ≠ names) ++ [(names, entry)]⟩

def ensureDirectory (t : FileTree) (names : List String) : Except FileFault FileTree :=
  match t.find? names with
  | some .directory => .ok t
  | some (.file _) => .error .taken
  | none => .ok (t.set names .directory)

def createDirectory (t : FileTree) (directory : List String) : Except FileFault FileTree :=
  (List.range directory.length).foldlM (fun t n => t.ensureDirectory (directory.take (n + 1))) t

/-- Changes a tree for one item after the other up to the first failure, and keeps what was done
before it. -/
def each {α ε : Type} (change : FileTree → α → Except ε FileTree) :
    FileTree → List α → FileTree × Except ε Unit
  | t, [] => (t, .ok ())
  | t, item :: rest =>
    match change t item with
    | .ok t => each change t rest
    | .error fault => (t, .error fault)

def directoryParts (path : String) : List String :=
  ((path.splitOn "/").reverse.dropWhile (· = "")).reverse

/-- The parts that lead to each of the directories on a path. Only the path itself keeps the parts
that stay where they are. -/
def approach (path : String) : List (List String) :=
  (List.range (steps path).length).tail.map (steps path).take ++ [directoryParts path]

/-- Makes the directory at a path, and those that lead to it, as far as they are missing, and gives
its names. The empty path is the place itself. -/
def makeDirectories (t : FileTree) (place : List String) (path : String) :
    FileTree × Except FileFault (List String) :=
  if path = "" then (t, .ok place)
  else
    match check path with
    | .error fault => (t, .error fault)
    | .ok () =>
      let reach (t : FileTree) (parts : List String) := parts.foldlM t.enter (origin place path)
      match t.each (fun t parts => do t.ensureDirectory (← reach t parts)) (approach path) with
      | (t, .error fault) => (t, .error fault)
      | (t, .ok ()) => (t, reach t (directoryParts path))

def write (t : FileTree) (names : List String) (content : FileContent) :
    Except FileFault FileTree :=
  match t.find? names with
  | some .directory => .error .isDirectory
  | _ => .ok (t.set names (.file content))

def writeAt (t : FileTree) (place : List String) (path : String) (content : FileContent) :
    Except FileFault FileTree := do
  t.write (← t.resolve place path) content

def files? (t : FileTree) (directory : List String) : Option (List (String × FileContent)) :=
  match t.find? directory with
  | some .directory =>
    some (t.entries.filterMap fun (names, entry) =>
      match entry with
      | .file content =>
        if names.dropLast = directory then names.getLast?.map (·, content) else none
      | .directory => none)
  | _ => none

end FileTree

end EngineBridge
