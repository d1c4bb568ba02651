import CommandScript.Evaluation.Builtin
import CommandScript.Loader.LoadError
import CommandScript.Mailbox.Signals
import CommandScript.Symbol

/-!
# Why an evaluation fails

A failure names its cause. A failure while a module is loaded wraps the cause together with the path
of the module and the name it was meant for.
-/

namespace CommandScript.Machine

/-- The sorts of values. -/
inductive Kind where
  | nothing
  | symbol
  | number
  | text
  | list
  | script
  | function
  | process
  | mailbox
  | module
deriving DecidableEq, Repr

/-- The name of a sort. -/
def Kind.name : Kind → String
  | .nothing => "nothing"
  | .symbol => "symbol"
  | .number => "number"
  | .text => "text"
  | .list => "list"
  | .script => "script"
  | .function => "function"
  | .process => "process"
  | .mailbox => "mailbox"
  | .module => "module"

/-- What a value may have to be. -/
inductive CastTarget where
  | truth
  | number
  | finiteNumber
  /-- A number whose neighbours are whole numbers apart. -/
  | exactRange
deriving DecidableEq, Repr

/-- The name of a requirement. -/
def CastTarget.name : CastTarget → String
  | .truth => "bool"
  | .number => "number"
  | .finiteNumber => "finite number"
  | .exactRange => "exact integer range"

/-- The calls that have a form of their own. -/
inductive CallForm where
  | builtin (called : Evaluation.Builtin)
  /-- A module called with the name of one of its functions. -/
  | moduleFunction
deriving DecidableEq, Repr

/-- The form as usage lines show it. -/
def CallForm.usage : CallForm → String
  | .builtin called => called.usage
  | .moduleFunction => "<module> <function> [args...]"

/-- Why an evaluation fails. -/
inductive EvalError where
  | invalidSymbol (error : InvalidSymbol)
  | unboundVariable (name : Symbol)
  | commandNotFound (head : Symbol)
  /-- A value that is no function, process or module stands where one is called. -/
  | notCallable (called : String)
  | arityMismatch (function : Symbol) (expected got : Nat)
  | alreadyBound (name : Symbol)
  /-- A function is defined inside another. -/
  | nestedFunction (name : Symbol)
  /-- A value without a source form is put into a list. -/
  | unencodable (kind : Kind)
  | cast (found : Kind) (target : CastTarget)
  /-- A call that does not have its form. -/
  | usage (form : CallForm)
  | moduleLoad (path : String) (name : Symbol) (cause : EvalError)
  | noLoader
  | channelNotFound (name : Symbol)
  | reservedScope (scope : Symbol)
  | mailbox (failure : Mailbox.Failure)
  | parse (error : Source.ParseError)
  | load (error : Loader.LoadError)
deriving DecidableEq

/-- How the cause is told. -/
def EvalError.message : EvalError → String
  | .invalidSymbol error => error.message
  | .unboundVariable name => "variable $" ++ name.text ++ " is not defined"
  | .commandNotFound head => "command " ++ head.text ++ " not found"
  | .notCallable called => "value " ++ called ++ " is not callable"
  | .arityMismatch function expected got =>
    "function " ++ function.text ++ " requires " ++ toString expected ++ " args got " ++
      toString got
  | .alreadyBound name => name.text ++ " is already defined"
  | .nestedFunction name => "function " ++ name.text ++ " cannot be defined inside another function"
  | .unencodable kind => "unable to encode value of type " ++ kind.name ++ " into an argument"
  | .cast found target => "cannot cast value of type " ++ found.name ++ " to " ++ target.name
  | .usage form => "usage: " ++ form.usage
  | .moduleLoad path name cause =>
    "error while loading " ++ path ++ " as " ++ name.text ++ ", cause: " ++ cause.message
  | .noLoader => "there are no loaders configured for this VM"
  | .channelNotFound name => "channel " ++ name.text ++ " not found"
  | .reservedScope scope => "scope " ++ scope.text ++ " is reserved for the runtime"
  | .mailbox failure => failure.message
  | .parse error => error.message
  | .load error => error.message

end CommandScript.Machine
