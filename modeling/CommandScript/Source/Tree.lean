import CommandScript.Symbol

/-!
# Programs as trees

A script is a sequence of commands, a command is a head with arguments, and an argument is a symbol,
a number, a text, a variable, a list of arguments or a script. Two trees are the same when they
agree node by node; numbers are compared as numbers, so that an undefined number differs from itself
and the two zeros are one.
-/

namespace CommandScript.Source

mutual

/-- What a command is applied to. A variable is held by its name, without the sign in front. -/
inductive Argument where
  | symbol (symbol : Symbol)
  | number (value : Float)
  | text (text : String)
  | variable (name : Symbol)
  | list (items : List Argument)
  | script (commands : List Command)

/-- A head applied to arguments. -/
inductive Command where
  | mk (head : Symbol) (args : List Argument)

end

/-- A sequence of commands. -/
abbrev Script : Type := List Command

/-- What the command is called by. -/
def Command.head : Command → Symbol
  | .mk head _ => head

/-- What the command is applied to. -/
def Command.args : Command → List Argument
  | .mk _ args => args

/-- The name of the sort of argument. -/
def Argument.kind : Argument → String
  | .symbol _ => "symbol"
  | .number _ => "number"
  | .text _ => "text"
  | .variable _ => "variable"
  | .list _ => "list"
  | .script _ => "script"

/-- The argument is a script. -/
def Argument.isScript : Argument → Bool
  | .script _ => true
  | _ => false

/-- The head and the arguments are those of the command that a bare block stands for. -/
def isBareBlock (head : Symbol) : List Argument → Bool
  | [.script _] => head = Keyword.block
  | _ => false

mutual

/-- Two arguments are the same tree. -/
def Argument.same : Argument → Argument → Bool
  | .symbol a, .symbol b => a = b
  | .number a, .number b => a == b
  | .text a, .text b => a = b
  | .variable a, .variable b => a = b
  | .list a, .list b => Argument.sameAll a b
  | .script a, .script b => Command.sameAll a b
  | _, _ => false

/-- Two sequences of arguments are the same, place by place. -/
def Argument.sameAll : List Argument → List Argument → Bool
  | [], [] => true
  | a :: as, b :: bs => a.same b && Argument.sameAll as bs
  | _, _ => false

/-- Two commands have the same head and the same arguments. -/
def Command.same : Command → Command → Bool
  | .mk head args, .mk head' args' => head = head' && Argument.sameAll args args'

/-- Two scripts are the same, command by command. -/
def Command.sameAll : List Command → List Command → Bool
  | [], [] => true
  | a :: as, b :: bs => a.same b && Command.sameAll as bs
  | _, _ => false

end

end CommandScript.Source
