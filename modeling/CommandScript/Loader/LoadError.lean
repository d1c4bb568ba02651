import CommandScript.Source.ParseError

/-!
# Why a module cannot be loaded

A module is missing, its file cannot be read, or its source is not a program.
-/

namespace CommandScript.Loader

/-- Why a file cannot be read. -/
inductive FileFault where
  | missing
  | isDirectory
  | notDirectory
  | nameTooLong
  | nullByte
  | notText
deriving DecidableEq, Repr

/-- How the reason is told. -/
def FileFault.message : FileFault → String
  | .missing => "No such file or directory (os error 2)"
  | .isDirectory => "Is a directory (os error 21)"
  | .notDirectory => "Not a directory (os error 20)"
  | .nameTooLong => "File name too long (os error 36)"
  | .nullByte => "file name contained an unexpected NUL byte"
  | .notText => "stream did not contain valid UTF-8"

/-- Why a module cannot be loaded. -/
inductive LoadError where
  /-- There is no module of the requested path. -/
  | notFound (path : String)
  /-- The file at a path cannot be read. -/
  | unreadable (file : String) (fault : FileFault)
  /-- The source is not a program. -/
  | parse (error : Source.ParseError)
deriving DecidableEq, Repr

/-- How the reason is told. -/
def LoadError.message : LoadError → String
  | .notFound path => "module " ++ path ++ " not found"
  | .unreadable file fault => "reading module " ++ file ++ ": " ++ fault.message
  | .parse error => error.message

end CommandScript.Loader
