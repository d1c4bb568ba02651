import CommandScript.Evaluation.Builtin
import CommandScript.Source.Tree

/-!
# The forms of built-in commands

A built-in command gets its arguments unevaluated and takes them apart by its form. A form is
complete before anything is evaluated: every clause of a choice and every entry of a list of modules
must be in order.
-/

namespace CommandScript.Evaluation

open CommandScript.Source

/-- A case of a selection: its condition, if it has one, and its body. -/
structure Clause where
  condition : Option Script
  body : Script

/-- A built-in command with its arguments taken apart. -/
inductive Form where
  | define (name : Symbol) (value : Argument)
  | choose (condition : Argument) (consequence : Script) (alternative : Option Script)
  | select (clauses : List Clause)
  | guard (condition body : Script)
  | loop (counter : Symbol) (first last : Argument) (body : Script)
  /-- The parameters are taken apart only after it is known that a function may be defined. -/
  | function (name : Symbol) (params : List Argument) (body : Script)
  | load (entries : List (String × Symbol))
  | print (channel : Symbol) (args : List Argument)
  | block (body : Script)
  | truth (value : Bool)

/-- The clause that a command stands for. -/
def clause? (command : Command) : Option Clause :=
  match command.head.text, command.args with
  | "case", [.script condition, .script body] => some ⟨some condition, body⟩
  | "else", [.script body] => some ⟨none, body⟩
  | _, _ => none

/-- The path and the local name that an entry of a list of modules stands for. -/
def entry? (arg : Argument) : Option (String × Symbol) :=
  match arg with
  | .list [.text path, .symbol name] => some (path, name)
  | _ => none

/-- The name of a parameter. -/
def param? (arg : Argument) : Option Symbol :=
  match arg with
  | .variable name => some name
  | _ => none

/-- The form of a loop. -/
def loopForm? (args : List Argument) : Option Form :=
  match args with
  | [.symbol counter, .symbol start, first, .symbol stop, last, .script body] =>
    if start.text = "from" ∧ stop.text = "to" then some (.loop counter first last body) else none
  | _ => none

/-- The form of a choice. -/
def chooseForm? (args : List Argument) : Option Form :=
  match args with
  | [condition, .script consequence] => some (.choose condition consequence none)
  | [condition, .script consequence, .symbol word, .script alternative] =>
    if word.text = "else" then some (.choose condition consequence (some alternative)) else none
  | _ => none

/-- The form of a built-in command with the given arguments, if they are in order. -/
def Form.ofArguments? (builtin : Builtin) (args : List Argument) : Option Form :=
  match builtin, args with
  | .define, [.variable name, value] => some (.define name value)
  | .choose, args => chooseForm? args
  | .select, [.script commands] => (commands.mapM clause?).map .select
  | .guard, [.script condition, .script body] => some (.guard condition body)
  | .loop, args => loopForm? args
  | .function, [.symbol name, .list params, .script body] => some (.function name params body)
  | .load, [.list entries] => (entries.mapM entry?).map .load
  | .printOut, args => some (.print Keyword.stdout args)
  | .printErr, args => some (.print Keyword.stderr args)
  | .block, [.script body] => some (.block body)
  | .yes, _ => some (.truth true)
  | .no, _ => some (.truth false)
  | _, _ => none

end CommandScript.Evaluation
