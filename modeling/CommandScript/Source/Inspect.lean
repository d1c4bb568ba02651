import CommandScript.Decimal.Layout
import CommandScript.Source.Tree

/-!
# Trees in diagnostics

A diagnostic shows a tree with the name of every node, its texts quoted and its numbers in the
layout of diagnostics.
-/

namespace CommandScript.Source

/-- The parts of a sequence in brackets, parted by commas. -/
def bracketed (parts : List String) : String :=
  "[" ++ String.intercalate ", " parts ++ "]"

mutual

/-- An argument with the names of its nodes. -/
def Argument.inspected : Argument → String
  | .symbol symbol => "Symbol(" ++ symbol.inspected ++ ")"
  | .number value => "Number(" ++ Decimal.Layout.diagnostic.text value ++ ")"
  | .text text => "Text(" ++ Text.quoted text ++ ")"
  | .variable name => "Variable(" ++ name.inspected ++ ")"
  | .list items => "List(" ++ bracketed (Argument.inspectedAll items) ++ ")"
  | .script commands =>
    "Script(Script \x7b commands: " ++ bracketed (Command.inspectedAll commands) ++ " \x7d)"

/-- Each of a sequence of arguments with the names of its nodes. -/
def Argument.inspectedAll : List Argument → List String
  | [] => []
  | arg :: rest => arg.inspected :: Argument.inspectedAll rest

/-- A command with the names of its nodes. -/
def Command.inspected : Command → String
  | .mk head args =>
    "Command \x7b head: " ++ head.inspected ++ ", args: " ++
      bracketed (Argument.inspectedAll args) ++ " \x7d"

/-- Each of a sequence of commands with the names of its nodes. -/
def Command.inspectedAll : List Command → List String
  | [] => []
  | command :: rest => command.inspected :: Command.inspectedAll rest

end

end CommandScript.Source
