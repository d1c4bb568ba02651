/-!
# Built-in commands

The commands every machine knows. They are found before anything else, so that no script can hide
one.
-/

namespace CommandScript.Evaluation

/-- A command that every machine knows. -/
inductive Builtin where
  | define
  | choose
  | select
  | guard
  | loop
  | function
  | load
  | printOut
  | printErr
  | block
  | yes
  | no
deriving DecidableEq, Repr

namespace Builtin

/-- All built-in commands in the order in which they are listed. -/
def all : List Builtin :=
  [.define, .choose, .select, .guard, .loop, .function, .load, .printOut, .printErr, .block,
    .yes, .no]

/-- The head that calls the command. -/
def name : Builtin → String
  | .define => "let"
  | .choose => "if"
  | .select => "switch"
  | .guard => "guard"
  | .loop => "loop"
  | .function => "func"
  | .load => "import"
  | .printOut => "println"
  | .printErr => "eprintln"
  | .block => "do"
  | .yes => "true"
  | .no => "false"

/-- The form of a proper call. -/
def usage : Builtin → String
  | .define => "let <$variableName> <value>"
  | .choose => "if <condition> <\x7bthen\x7d> [else <\x7belse\x7d>]"
  | .select =>
    "switch \x7b case <\x7bguard-script\x7d> <\x7baction-script\x7d> [case ...] " ++
      "[else <\x7baction-script\x7d>] \x7d"
  | .guard => "guard \x7b... conditions\x7d \x7b... actions\x7d"
  | .loop => "loop <variable-name> from <start-point> to <end-point> <\x7bbody\x7d>"
  | .function => "func <name> [<$arg> ...] <\x7bbody\x7d>"
  | .load => "import [ <[\"module/path\" local-name] ...> ]"
  | .printOut => "println <value> ..."
  | .printErr => "eprintln <value> ..."
  | .block => "do <\x7bblock\x7d>"
  | .yes => "true"
  | .no => "false"

/-- The built-in command that a head calls. -/
def ofName? (name : String) : Option Builtin :=
  all.find? fun builtin => builtin.name == name

/-- Every built-in command is found by its own head, so no two of them share one. -/
theorem ofName?_name (builtin : Builtin) : ofName? builtin.name = some builtin := by
  cases builtin <;> decide

end Builtin

end CommandScript.Evaluation
