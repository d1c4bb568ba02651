import CommandScript.Loader.FileTree
import CommandScript.Source.Parse

/-!
# Loaders

A loader turns the path of a module into a script. It may consult and change the state of the host.
Modules are kept in memory, as sources or as trees, or in files below a directory: the path
`lib/math` means the file of that name if there is one, and otherwise the file with the extension of
sources. Paths that are absolute or go up name no module.
-/

namespace CommandScript

open CommandScript.Source

/-- What turns the path of a module into a script, given the state of the host. -/
def Loader (Host : Type) : Type :=
  String → Host → Except Loader.LoadError Script × Host

namespace Loader

/-- The loader that takes no part in the state of the host. -/
def ofFunction {Host : Type} (load : String → Except LoadError Script) : Loader Host :=
  fun path host => (load path, host)

/-- The script of a source. -/
def parseSource (text : String) : Except LoadError Script :=
  match Script.parse text with
  | .ok script => .ok script
  | .error error => .error (.parse error)

/-! ## Modules in memory -/

/-- A module in memory: a source, read anew on each load, or a tree. -/
inductive ModuleText where
  | source (text : String)
  | tree (script : Script)

/-- The modules in memory by their paths. -/
structure Memory where
  modules : List (String × ModuleText)

/-- The module of a path. -/
def Memory.find? (memory : Memory) (path : String) : Option ModuleText :=
  memory.modules.lookup path

/-- There is a module of the path. -/
def Memory.contains (memory : Memory) (path : String) : Bool :=
  (memory.find? path).isSome

/-- The script of a path. -/
def Memory.load (memory : Memory) (path : String) : Except LoadError Script :=
  match memory.find? path with
  | some (.source text) => parseSource text
  | some (.tree script) => .ok script
  | none => .error (.notFound path)

/-! ## Modules in files -/

/-- The extension of the files that hold sources. -/
def sourceExtension : List Char :=
  "gshell".toList

/-- The files of a loader and the directory below which it reads. -/
structure Files where
  tree : FileTree
  root : FilePath

/-- The file that a path of a module stands for. -/
def Files.resolve? (files : Files) (path : FilePath) : Option FilePath :=
  if path.isConfined then
    let direct := files.root.below path
    if files.tree.isFile direct || direct.extension?.isSome then some direct
    else some (direct.withExtension sourceExtension)
  else none

/-- The script of a path. A file that does not exist makes the requested module missing. -/
def Files.load (files : Files) (path : String) : Except LoadError Script :=
  match files.resolve? path.toList with
  | none => .error (.notFound path)
  | some file =>
    match files.tree.readText file with
    | .ok text => parseSource text
    | .error .missing => .error (.notFound path)
    | .error fault => .error (.unreadable (String.ofList file) fault)

end Loader

end CommandScript
