import CommandScript.Loader.FilePath
import CommandScript.Loader.LoadError

/-!
# Trees of files

A tree of files holds files and directories by the sequence of names that leads to them; whatever
leads to an entry is a directory. A path is walked piece by piece, and each piece needs a directory
to be looked up in, also a piece that names nothing.
-/

namespace CommandScript.Loader

/-- What lies at a place in a tree of files. -/
inductive FileNode where
  | file (content : ByteArray)
  | directory

/-- The files and directories of a tree, each with the names that lead to it. -/
structure FileTree where
  entries : List (List (List Char) × FileNode)

namespace FileTree

/-- The greatest size of a name, in bytes. -/
def nameLimit : Nat := 255

/-- The greatest size of a path, in bytes. -/
def pathLimit : Nat := 4095

/-- The size of a text in bytes. -/
def byteSize (text : List Char) : Nat :=
  (String.ofList text).utf8ByteSize

/-- What lies at a place. The top is a directory, and so is every place that leads to an entry. -/
def node? (tree : FileTree) (place : List (List Char)) : Option FileNode :=
  match tree.entries.find? fun entry => entry.1 = place with
  | some entry => some entry.2
  | none =>
    if place = [] || tree.entries.any fun entry => place.isPrefixOf entry.1 then some .directory
    else none

/-- The place that is reached from a place by walking over pieces of a path. -/
def walk (tree : FileTree) (place : List (List Char)) :
    List (List Char) → Except FileFault (List (List Char))
  | [] => .ok place
  | piece :: rest =>
    match tree.node? place with
    | some .directory =>
      if FilePath.isVoid piece then tree.walk place rest
      else if nameLimit < byteSize piece then .error .nameTooLong
      else if (tree.node? (place ++ [piece])).isSome then tree.walk (place ++ [piece]) rest
      else .error .missing
    | some (.file _) => .error .notDirectory
    | none => .error .missing

/-- What lies at the end of a path. -/
def find (tree : FileTree) (path : FilePath) : Except FileFault FileNode :=
  if path.contains '\x00' then .error .nullByte
  else if pathLimit < byteSize path then .error .nameTooLong
  else
    match tree.walk [] path.pieces with
    | .error fault => .error fault
    | .ok place =>
      match tree.node? place with
      | some node => .ok node
      | none => .error .missing

/-- A file lies at the end of the path. -/
def isFile (tree : FileTree) (path : FilePath) : Bool :=
  match tree.find path with
  | .ok (.file _) => true
  | _ => false

/-- The text that bytes encode. -/
def decode (content : ByteArray) : Except FileFault String :=
  match String.fromUTF8? content with
  | some text => .ok text
  | none => .error .notText

/-- The text of the file at the end of the path. -/
def readText (tree : FileTree) (path : FilePath) : Except FileFault String :=
  match tree.find path with
  | .error fault => .error fault
  | .ok .directory => .error .isDirectory
  | .ok (.file content) => decode content

/-- The place that a relative path names; a piece that goes up drops the name before it. -/
def place (path : FilePath) : List (List Char) :=
  path.components.foldl
    (fun place piece => if FilePath.isParent piece then place.dropLast else place ++ [piece]) []

/-- The tree with one more entry: an empty directory if the path ends in a slash, otherwise a
file. -/
def add (tree : FileTree) (path : FilePath) (content : ByteArray) : FileTree :=
  let node := if path.getLast? = some '/' then .directory else .file content
  ⟨tree.entries ++ [(place path, node)]⟩

end FileTree

end CommandScript.Loader
