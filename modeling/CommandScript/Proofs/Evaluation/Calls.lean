import CommandScript.Evaluation.Evaluator

/-!
# Definitions and calls of functions

A definition is refused, or it adds one function to the table of a module.

All bodies of functions are run by one function of the evaluator. Here this function is a parameter:
with a caller of its own, an evaluator does something else whenever a function is called, and all
the rest as before.
-/

namespace CommandScript.Evaluation

open CommandScript.Machine CommandScript.Source

variable {Host : Type}

/-! ## Definitions of functions -/

/-- The function that a definition at a place makes. -/
def functionAt (machine : Machine Host) (place : Place) (name : Symbol) (params : List Symbol)
    (body : Script) : Function :=
  { id := machine.nextFunction
    name := name
    module := machine.modulePath place.module
    closure := place.scope
    params := params
    body := body }

/-- A definition is refused on the machine as it is, or adds one function to the table of the
module. -/
theorem runFunction_apply (frame : Frame) (name : Symbol) (params : List Argument) (body : Script)
    (machine : Machine Host) :
    runFunction frame name params body machine =
      match machine.scopes.insideFunction frame.caller.scope, params.mapM param?,
          machine.function? frame.caller.module name with
      | true, _, _ => Eval.fail (.nestedFunction name) machine
      | false, none, _ => Eval.fail (.usage (.builtin .function)) machine
      | false, some _, some _ => Eval.fail (.alreadyBound name) machine
      | false, some names, none =>
        let function := functionAt machine frame.caller name names body
        .ended (.ok (.function function)) (machine.define frame.caller.module function) := by
  change (Eval.require (!machine.scopes.insideFunction frame.caller.scope) _ machine).andThen _ = _
  cases machine.scopes.insideFunction frame.caller.scope with
  | true => rfl
  | false =>
      change (Eval.ofOption (params.mapM param?) _ machine).andThen _ = _
      cases params.mapM param? with
      | none => rfl
      | some names =>
          change (Eval.require (!(machine.function? frame.caller.module name).isSome) _
            machine).andThen _ = _
          cases machine.function? frame.caller.module name with
          | some known => rfl
          | none => rfl

/-! ## Evaluation with a caller -/

/-- What runs the body of a function with values for its parameters, where the module that found the
function is given to fall back on. -/
abbrev Caller (Host : Type) : Type :=
  Evaluator Host → Function → List Value → ModuleId → Eval Host Value

/-- `invoke` with a caller. -/
def invokeBy (call : Caller Host) (evaluate : Evaluator Host) (function : Function)
    (args : List Argument) (place : Place) (fallback : ModuleId) : Eval Host Value := do
  requireArity function args.length
  let values ← evalAll evaluate place args
  call evaluate function values fallback

/-- `callModule` with a caller. -/
def callModuleBy (call : Caller Host) (evaluate : Evaluator Host) (target : ModuleId)
    (args : List Argument) (place : Place) : Eval Host Value :=
  match args with
  | .symbol name :: rest => do
    let found ← Eval.read fun machine => machine.function? target name
    let function ← Eval.ofOption found (.commandNotFound name)
    invokeBy call evaluate function rest place target
  | _ => Eval.fail (.usage .moduleFunction)

/-- `callValue` with a caller. -/
def callValueBy (call : Caller Host) (evaluate : Evaluator Host) (value : Value) (head : Symbol)
    (args : List Argument) (place : Place) : Eval Host Value :=
  match value with
  | .function function => invokeBy call evaluate function args place place.module
  | .process id name => do
    let values ← evalAll evaluate place args
    callProcess id name values
  | .module target _ => callModuleBy call evaluate target args place
  | other => Eval.fail (.notCallable (head.text ++ " (" ++ other.kind.name ++ ")"))

/-- `runNamed` with a caller. -/
def runNamedBy (call : Caller Host) (evaluate : Evaluator Host) (frame : Frame) (head : Symbol)
    (args : List Argument) : Eval Host Value := do
  let bound ← Eval.read fun machine => machine.scopes.lookup frame.context head
  match bound with
  | some value => callValueBy call evaluate value head args frame.inside
  | none =>
    let defined ← Eval.read fun machine => machine.function? frame.caller.module head
    let function ← Eval.ofOption defined (.commandNotFound head)
    invokeBy call evaluate function args frame.inside frame.caller.module

/-- `evalCommand` with a caller. -/
def evalCommandBy (call : Caller Host) (evaluate : Evaluator Host) (place : Place)
    (command : Command) : Eval Host Value := do
  let context ← newBlock place.scope
  let frame : Frame := ⟨place, context⟩
  match Builtin.ofName? command.head.text with
  | some builtin => runBuiltin evaluate frame builtin command.args
  | none => runNamedBy call evaluate frame command.head command.args

/-- `evalCommands` with a caller. -/
def evalCommandsBy (call : Caller Host) (evaluate : Evaluator Host) (place : Place) :
    List Command → Value → Eval Host Value
  | [], last => Eval.pure last
  | command :: rest, _ => do
    let value ← evalCommandBy call evaluate place command
    evalCommandsBy call evaluate place rest value

/-- `evalScript` with a caller, that of the scripts inside as well. -/
def evalScriptBy (call : Caller Host) : Nat → Evaluator Host
  | 0 => fun _ _ => Eval.exhausted
  | depth + 1 => fun script place =>
    evalCommandsBy call (evalScriptBy call depth) place script .nothing

/-- With the usual caller a command is evaluated as usual. -/
theorem evalCommandBy_callFunction (evaluate : Evaluator Host) (place : Place)
    (command : Command) :
    evalCommandBy callFunction evaluate place command = evalCommand evaluate place command :=
  rfl

/-- With the usual caller commands are evaluated as usual. -/
theorem evalCommandsBy_callFunction (evaluate : Evaluator Host) (place : Place)
    (commands : List Command) (last : Value) :
    evalCommandsBy callFunction evaluate place commands last =
      evalCommands evaluate place commands last := by
  induction commands generalizing last with
  | nil => rfl
  | cons command rest ih =>
      rw [evalCommandsBy, evalCommands, evalCommandBy_callFunction]
      congr 1
      funext value
      exact ih value

/-- With the caller of the evaluator itself nothing has changed. -/
theorem evalScriptBy_callFunction (depth : Nat) :
    evalScriptBy callFunction depth = (evalScript depth : Evaluator Host) := by
  induction depth with
  | zero => rfl
  | succ depth ih =>
      funext script place
      rw [evalScriptBy, evalScript, ih]
      exact evalCommandsBy_callFunction _ place script .nothing

end CommandScript.Evaluation
