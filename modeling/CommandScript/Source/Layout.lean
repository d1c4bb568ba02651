import CommandScript.Decimal.Layout
import CommandScript.Source.Tree

/-!
# The canonical text of a program

Every tree has one text. A script without commands is `{}`, with one command it stays on its line,
and otherwise each command has a line of its own, indented by one tabulator more than the brace that
closes it. A list has a blank before every item and before its closing bracket. Text stands between
double quotes with the escapes that the reader knows. A command that a bare block stands for is
written as that block.

Texts are built from their ends: every part is laid out before the text that follows it, so that no
part is copied however deeply it is nested.
-/

namespace CommandScript.Source

/-- How one character of a text is written between the quotes. -/
def escaped (c : Char) : List Char :=
  match c with
  | '"' => ['\\', '"']
  | '\\' => ['\\', '\\']
  | '\n' => ['\\', 'n']
  | '\t' => ['\\', 't']
  | '\r' => ['\\', 'r']
  | c => [c]

/-- A part of a text: the characters that it puts before those that follow it. -/
abbrev Part : Type :=
  List Char → List Char

/-- A text between double quotes, as the reader takes it back. -/
def quotedText (text : List Char) : Part :=
  fun following => '"' :: (text.flatMap escaped ++ '"' :: following)

/-- The indentation of a line. -/
def tabs (depth : Nat) : Part :=
  fun following => List.replicate depth '\t' ++ following

/-- The depth of the commands of a script that stands at a given depth. -/
def bodyDepth (depth : Nat) (commands : Script) : Nat :=
  if commands.length ≤ 1 then depth else depth + 1

/-- The commands of a script between its braces. -/
def braced (depth : Nat) : List Part → Part
  | [] => fun following => '{' :: '}' :: following
  | [only] => fun following => '{' :: ' ' :: only (' ' :: '}' :: following)
  | many => fun following =>
    '{' :: '\n' :: many.foldr (fun line behind => tabs (depth + 1) (line ('\n' :: behind)))
      (tabs depth ('}' :: following))

mutual

/-- An argument on a line of the given depth. -/
def Argument.layout (depth : Nat) : Argument → Part
  | .symbol symbol => fun following => symbol.text.toList ++ following
  | .number value => fun following => (Decimal.Layout.plain.text value).toList ++ following
  | .text text => quotedText text.toList
  | .variable name => fun following => '$' :: (name.text.toList ++ following)
  | .list items => fun following =>
    '[' :: Argument.layouts depth items (' ' :: ']' :: following)
  | .script commands => braced depth (Command.layouts (bodyDepth depth commands) commands)

/-- Arguments, with a blank before each. -/
def Argument.layouts (depth : Nat) : List Argument → Part
  | [] => fun following => following
  | arg :: rest => fun following => ' ' :: arg.layout depth (Argument.layouts depth rest following)

/-- A command on a line of the given depth. For a bare block the head is left out together with the
blank after it. -/
def Command.layout (depth : Nat) : Command → Part
  | .mk head args => fun following =>
    if isBareBlock head args then (Argument.layouts depth args following).drop 1
    else head.text.toList ++ Argument.layouts depth args following

/-- The commands of a script, each on a line of the given depth. -/
def Command.layouts (depth : Nat) : List Command → List Part
  | [] => []
  | command :: rest => command.layout depth :: Command.layouts depth rest

end

/-- A script on a line of the given depth. -/
def Script.layout (depth : Nat) (script : Script) : Part :=
  braced depth (Command.layouts (bodyDepth depth script) script)

/-- The canonical text of an argument. -/
def Argument.render (arg : Argument) : String :=
  String.ofList (arg.layout 0 [])

/-- The canonical text of a command. -/
def Command.render (command : Command) : String :=
  String.ofList (command.layout 0 [])

/-- The canonical text of a script. -/
def Script.render (script : Script) : String :=
  String.ofList (script.layout 0 [])

/-- A text between double quotes, as a program writes it. -/
def quoteText (text : String) : String :=
  String.ofList (quotedText text.toList [])

end CommandScript.Source
