import GaslessRelay.Bytes

/-!
A file system as a map from paths to files and directories. Writing needs the directory of the
file, and renaming replaces a file at once.
-/

namespace GaslessRelay

abbrev FilePath := List String

namespace FilePath

/-- The names between slashes; empty names and single dots say nothing. -/
def ofString (text : String) : FilePath :=
  (split [] text.toList).filter fun name => name ≠ "" ∧ name ≠ "."
where
  /-- The parts between slashes, the current one gathered last character first. -/
  split (gathered : List Char) : List Char → List String
    | [] => [String.ofList gathered.reverse]
    | '/' :: rest => String.ofList gathered.reverse :: split [] rest
    | char :: rest => split (char :: gathered) rest

def parent (path : FilePath) : FilePath := path.dropLast

/-- A name without its last dot and what follows it; a dot at the start begins no extension. -/
def stem (name : String) : String :=
  match name.toList.reverse.dropWhile (· ≠ '.') with
  | _ :: before => if before.isEmpty then name else String.ofList before.reverse
  | [] => name

/-- The path with the extension of its last name replaced. -/
def withExtension (path : FilePath) (extension : String) : FilePath :=
  match path.getLast? with
  | some name => path.dropLast ++ [stem name ++ "." ++ extension]
  | none => path

end FilePath

inductive FileNode where
  | file (content : Bytes)
  | directory
deriving DecidableEq

inductive FileFault where
  | notFound
  | notDirectory
  | isDirectory
deriving DecidableEq

/-- A file system; the root is a directory. -/
structure FileSystem where
  nodes : List (FilePath × FileNode) := []

namespace FileSystem

def node? (files : FileSystem) (path : FilePath) : Option FileNode :=
  if path.isEmpty then some .directory
  else (files.nodes.find? (·.1 = path)).map Prod.snd

def put (files : FileSystem) (path : FilePath) (node : FileNode) : FileSystem :=
  ⟨(path, node) :: files.nodes.filter (·.1 ≠ path)⟩

def remove (files : FileSystem) (path : FilePath) : FileSystem :=
  ⟨files.nodes.filter (·.1 ≠ path)⟩

def removeAll (files : FileSystem) (path : FilePath) : FileSystem :=
  ⟨files.nodes.filter fun entry => !path.isPrefixOf entry.1⟩

def list (files : FileSystem) (path : FilePath) : List String :=
  files.nodes.filterMap fun entry =>
    if entry.1.dropLast = path then entry.1.getLast? else none

/-- The parts of a path that lead to it, itself last. -/
def leading (path : FilePath) : List FilePath :=
  (List.range path.length).map fun index => path.take (index + 1)

def checkParents (files : FileSystem) (path : FilePath) : Except FileFault Unit :=
  (leading path.parent).forM fun directory =>
    match files.node? directory with
    | some .directory => .ok ()
    | some (.file _) => .error .notDirectory
    | none => .error .notFound

def read (files : FileSystem) (path : FilePath) : Except FileFault Bytes := do
  files.checkParents path
  match files.node? path with
  | some (.file content) => return content
  | some .directory => .error .isDirectory
  | none => .error .notFound

def write (files : FileSystem) (path : FilePath) (content : Bytes) :
    Except FileFault FileSystem := do
  files.checkParents path
  match files.node? path with
  | some .directory => .error .isDirectory
  | _ => return files.put path (.file content)

def makeDirectory (files : FileSystem) (path : FilePath) : Except FileFault FileSystem :=
  match files.node? path with
  | some .directory => .ok files
  | some (.file _) => .error .notDirectory
  | none => .ok (files.put path .directory)

def makeDirectories (files : FileSystem) (path : FilePath) : Except FileFault FileSystem :=
  (leading path).foldlM makeDirectory files

def rename (files : FileSystem) (source target : FilePath) : Except FileFault FileSystem := do
  let content ← files.read source
  files.checkParents target
  match files.node? target with
  | some .directory => .error .isDirectory
  | _ => return (files.remove source).put target (.file content)

end FileSystem

end GaslessRelay
