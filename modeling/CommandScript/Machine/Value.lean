import CommandScript.Machine.EvalError
import CommandScript.Machine.Scope
import CommandScript.Sequence.Iterator
import CommandScript.Source.Inspect
import CommandScript.Source.Layout
import CommandScript.Mailbox.Basic

/-!
# Values

Evaluating an argument yields a value. Symbols, numbers, texts, lists and scripts can be encoded as
arguments again; functions, host processes, mailboxes and modules cannot, and are known by their
identifiers. Two values are the same when their data agree, or when they have the same identifier.
-/

namespace CommandScript.Machine

open CommandScript.Source

/-- A function: its own identifier, its name, the path of the module that defines it, the scope it
was defined in, its parameters and its body. -/
structure Function where
  id : Nat
  name : Symbol
  module : String
  closure : ScopeId
  params : List Symbol
  body : Script

/-- Host processes are numbered in the order in which they are registered. -/
abbrev ProcessId : Type := Nat

/-- Mailboxes are numbered in the order in which they are made. -/
abbrev MailboxId : Type := Nat

/-- Modules are numbered in the order in which they are made. -/
abbrev ModuleId : Type := Nat

/-- What evaluation yields. -/
inductive Value where
  | nothing
  | symbol (symbol : Symbol)
  | number (value : Float)
  | text (text : String)
  | list (items : Sequence Argument)
  | script (script : Script)
  | function (function : Function)
  | process (id : ProcessId) (name : String)
  | mailbox (id : MailboxId)
  | module (id : ModuleId) (path : String)

namespace Value

/-- A condition as a value. -/
def ofBool (condition : Bool) : Value :=
  .symbol (if condition then Keyword.yes else Keyword.no)

/-- The sort of the value. -/
def kind : Value → Kind
  | .nothing => .nothing
  | .symbol _ => .symbol
  | .number _ => .number
  | .text _ => .text
  | .list _ => .list
  | .script _ => .script
  | .function _ => .function
  | .process .. => .process
  | .mailbox _ => .mailbox
  | .module .. => .module

/-- The argument that evaluates to the value, if it has one. A script becomes the argument that it
is written as. -/
def encode : Value → Except EvalError Argument
  | .symbol held => .ok (.symbol held)
  | .number value => .ok (.number value)
  | .text content => .ok (.text content)
  | .list items => .ok (.list items.walk)
  | .script commands => .ok (.script commands)
  | value => .error (.unencodable value.kind)

/-- The condition that a symbol stands for: only one symbol is true. -/
def toBool : Value → Except EvalError Bool
  | .symbol held => .ok (held = Keyword.yes)
  | value => .error (.cast value.kind .truth)

/-- The number that the value is. -/
def toNumber : Value → Except EvalError Float
  | .number value => .ok value
  | value => .error (.cast value.kind .number)

/-- The symbol that the value is. -/
def symbol? : Value → Option Symbol
  | .symbol held => some held
  | _ => none

/-- The text that the value is. -/
def text? : Value → Option String
  | .text content => some content
  | _ => none

/-- The mailbox that the value is. -/
def mailbox? : Value → Option MailboxId
  | .mailbox id => some id
  | _ => none

/-- The value is the one of an empty script. -/
def isNothing : Value → Bool
  | .nothing => true
  | _ => false

/-- The value as it is printed. -/
def render : Value → String
  | .nothing => "<nothing>"
  | .symbol held => held.text
  | .number value => Decimal.Layout.plain.text value
  | .text content => content
  | .list items => (Argument.list items.walk).render
  | .script commands => Script.render commands
  | .function called => "<function " ++ called.name.text ++ ">"
  | .process _ name => "<process " ++ name ++ ">"
  | .mailbox _ => "<mailbox>"
  | .module _ path => "<module " ++ path ++ ">"

/-- The depth of each mailbox and the number of items it has lost. -/
abbrev MailboxCounts : Type := MailboxId → Nat × Nat

/-- The value as a diagnostic shows it. -/
def inspected (counts : MailboxCounts) : Value → String
  | .nothing => "Nothing"
  | .symbol held => "Symbol(" ++ held.text ++ ")"
  | .number value => "Number(" ++ Decimal.Layout.plain.text value ++ ")"
  | .text content => "Text(" ++ Text.quoted content ++ ")"
  | .list items => "List(" ++ bracketed (Argument.inspectedAll items.walk) ++ ")"
  | .script commands => "Script(" ++ Script.render commands ++ ")"
  | .function called => "Function(" ++ called.name.text ++ ")"
  | .process _ name => "Process(" ++ name ++ ")"
  | .mailbox id => Mailbox.inspected (counts id).1 (counts id).2
  | .module _ path => "Module(" ++ path ++ ")"

/-- Two values are the same. -/
def same : Value → Value → Bool
  | .nothing, .nothing => true
  | .symbol a, .symbol b => a = b
  | .number a, .number b => a == b
  | .text a, .text b => a = b
  | .list a, .list b => Sequence.same Argument.same a b
  | .script a, .script b => Command.sameAll a b
  | .function a, .function b => a.id = b.id
  | .process a _, .process b _ => a = b
  | .mailbox a, .mailbox b => a = b
  | .module a _, .module b _ => a = b
  | _, _ => false

end Value

end CommandScript.Machine
