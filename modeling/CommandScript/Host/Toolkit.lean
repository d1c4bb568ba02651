import CommandScript.Machine.Basic

/-!
# The standard host processes

A host may add these commands to a machine: arithmetic and comparison of numbers, logic, questions
about values, and a cell that keeps one value. The state of the host is that cell. An argument that
is missing counts as the value of an empty script.
-/

namespace CommandScript.Host

open CommandScript.Machine

/-- The state of the host: the value that was kept last. -/
abbrev Cell : Type := Value

/-- What a process does with its arguments. -/
abbrev Action : Type :=
  ProcessCall → Cell → Except EvalError Value × Cell

/-- The process that yields a value or fails, and leaves the cell alone. -/
def answering (answer : ProcessCall → Except EvalError Value) : Action :=
  fun call cell => (answer call, cell)

/-- An argument of a call. -/
def arg (call : ProcessCall) (index : Nat) : Value :=
  call.args.getD index .nothing

/-- The outcome of an operation on two numbers. -/
def onNumbers (operation : Float → Float → Value) (call : ProcessCall) :
    Except EvalError Value := do
  let first ← (arg call 0).toNumber
  let second ← (arg call 1).toNumber
  return operation first second

/-- The arguments joined by an operation on numbers, from left to right. -/
def foldNumbers (operation : Float → Float → Float) (start : Float) (call : ProcessCall) :
    Except EvalError Value := do
  let total ← call.args.foldlM (fun total value => return operation total (← value.toNumber)) start
  return .number total

/-- The number before the first argument. -/
def decrement (call : ProcessCall) : Except EvalError Value := do
  let number ← (arg call 0).toNumber
  return .number (number - 1.0)

/-- The opposite of the first argument. -/
def negate (call : ProcessCall) : Except EvalError Value := do
  let condition ← (arg call 0).toBool
  return .ofBool (!condition)

/-- The list that holds the first argument. -/
def wrapInList (call : ProcessCall) : Except EvalError Value := do
  let encoded ← (arg call 0).encode
  return .list (Sequence.ofList [encoded])

/-- The action of a standard process. -/
def action? (name : String) : Option Action :=
  match name with
  | "sum" => some (answering (foldNumbers (· + ·) 0.0))
  | "mul" => some (answering (foldNumbers (· * ·) 1.0))
  | "dec" => some (answering decrement)
  | "div" => some (answering (onNumbers fun a b => .number (a / b)))
  | "lt" => some (answering (onNumbers fun a b => .ofBool (a < b)))
  | "not" => some (answering negate)
  | "eq" => some (answering fun call => .ok (.ofBool ((arg call 0).same (arg call 1))))
  | "count" => some (answering fun call => .ok (.number call.args.length.toUInt64.toFloat))
  | "type" => some (answering fun call => .ok (.text (arg call 0).kind.name))
  | "show" => some (answering fun call => .ok (.text (arg call 0).render))
  | "debug" => some (answering fun call => .ok (.text ((arg call 0).inspected call.counts)))
  | "id" => some (answering fun call => .ok (arg call 0))
  | "nothing" => some (answering fun _ => .ok .nothing)
  | "encode" => some (answering wrapInList)
  | "fail" => some (answering fun call => .error (.notCallable (arg call 0).render))
  | "stash" => some fun call _ => (.ok (.ofBool true), arg call 0)
  | "fetch" => some fun _ cell => (.ok cell, cell)
  | _ => none

/-- The standard process of a name. -/
def process? (name : String) : Option (HostProcess Cell) :=
  (action? name).map fun action => ⟨name, action⟩

/-- The process that always yields the same value. -/
def constant (name : String) (value : Value) : HostProcess Cell :=
  ⟨name, answering fun _ => .ok value⟩

end CommandScript.Host
