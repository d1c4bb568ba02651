import CommandScript.Text.Line

/-!
# Paths of files

A path is a text whose pieces are parted by slashes. Empty pieces and single dots name nothing; the
other pieces are the components of the path. The extension of a file is what follows the last dot of
the last component, unless that dot comes first.
-/

namespace CommandScript.Loader

/-- A path as it is written. -/
abbrev FilePath : Type := List Char

namespace FilePath

/-- The texts between the slashes. -/
def pieces (path : FilePath) : List (List Char) :=
  Text.splitAt '/' path

/-- The piece names nothing. -/
def isVoid (piece : List Char) : Bool :=
  piece = [] || piece = ['.']

/-- The piece names the directory above. -/
def isParent (piece : List Char) : Bool :=
  piece = ['.', '.']

/-- The pieces that name something. -/
def components (path : FilePath) : List (List Char) :=
  path.pieces.filter fun piece => !isVoid piece

/-- The path starts at the top of all files. -/
def isAbsolute (path : FilePath) : Bool :=
  path.head? = some '/'

/-- The path neither starts at the top nor ever goes up. -/
def isConfined (path : FilePath) : Bool :=
  !path.isAbsolute && !path.pieces.any isParent

/-- A relative path below a directory, both as they are written; a slash parts them unless there is
nothing to part or the directory ends in one. -/
def below (directory path : FilePath) : FilePath :=
  if directory = [] || directory.getLast? = some '/' then directory ++ path
  else directory ++ '/' :: path

/-- A name cut at its last dot, unless that dot comes first. -/
def splitExtension (name : List Char) : List Char × Option (List Char) :=
  match Text.splitOnce '.' name.reverse with
  | none => (name, none)
  | some (extension, stem) =>
    if stem = [] then (name, none) else (stem.reverse, some extension.reverse)

/-- The last component, unless that goes up. -/
def fileName? (path : FilePath) : Option (List Char) :=
  path.components.getLast?.filter fun name => !isParent name

/-- The extension of the last component. -/
def extension? (path : FilePath) : Option (List Char) :=
  path.fileName?.bind fun name => (splitExtension name).2

/-- Pieces written with slashes between them. -/
def ofPieces (pieces : List (List Char)) : FilePath :=
  List.intercalate ['/'] pieces

/-- The pieces up to the last component. -/
def piecesToName (path : FilePath) : List (List Char) :=
  (path.pieces.reverse.dropWhile isVoid).reverse

/-- The path with another extension on its last component; what follows that component is
dropped. -/
def withExtension (path : FilePath) (extension : List Char) : FilePath :=
  let pieces := path.piecesToName
  match pieces.getLast? with
  | some name =>
    if isParent name then path
    else ofPieces (pieces.dropLast ++ [(splitExtension name).1 ++ '.' :: extension])
  | none => path

end FilePath

end CommandScript.Loader
