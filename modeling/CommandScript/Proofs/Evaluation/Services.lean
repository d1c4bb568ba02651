import CommandScript.Evaluation.Evaluator

/-!
# The services of evaluation

Evaluation deals with the world in two ways: it pushes what is printed to mailboxes, and it loads
modules. Here these two services are parameters. With services of its own an evaluator may do more
at those points, such as keep a record of them, and do all the rest as before.
-/

namespace CommandScript.Evaluation

open CommandScript.Machine CommandScript.Source

/-- What pushes a value to a mailbox, and what loads the module of a path with an evaluator for its
script. -/
structure Services (Host : Type) where
  push : MailboxId → Value → Eval Host Value
  load : Evaluator Host → String → Eval Host ModuleId

variable {Host : Type}

/-- The services of the evaluator itself. -/
def Services.standard : Services Host :=
  ⟨pushAndWait, loadModule⟩

/-! ## Evaluation with services -/

/-- `runLoad` with a service that loads modules. -/
def runLoadWith (services : Services Host) (evaluate : Evaluator Host) (frame : Frame) :
    List (String × Symbol) → Eval Host Value
  | [] => Eval.pure (.ofBool true)
  | (path, name) :: rest => do
    let wrap (cause : EvalError) : EvalError := .moduleLoad path name cause
    let canLoad ← Eval.read fun machine => machine.loader.isSome
    Eval.require canLoad (wrap .noLoader)
    requireFree frame.caller.scope name (wrap (.alreadyBound name))
    let id ← Eval.mapError (services.load evaluate path) wrap
    bindFresh frame.caller.scope name (.module id path) (wrap (.alreadyBound name))
    runLoadWith services evaluate frame rest

/-- `runPrint` with a service that pushes values. -/
def runPrintWith (services : Services Host) (evaluate : Evaluator Host) (frame : Frame)
    (channel : Symbol) (args : List Argument) : Eval Host Value := do
  let values ← evalAll evaluate frame.inside args
  let found ← Eval.read fun machine => machine.scopes.lookup frame.context channel
  let mailbox ← Eval.ofOption (found.bind Value.mailbox?) (.channelNotFound channel)
  services.push mailbox (.text (printedLine values))

/-- `runForm` with services. -/
def runFormWith (services : Services Host) (evaluate : Evaluator Host) (frame : Frame)
    (form : Form) : Eval Host Value :=
  match form with
  | .load entries => runLoadWith services evaluate frame entries
  | .print channel args => runPrintWith services evaluate frame channel args
  | other => runForm evaluate frame other

/-- `runBuiltin` with services. -/
def runBuiltinWith (services : Services Host) (evaluate : Evaluator Host) (frame : Frame)
    (builtin : Builtin) (args : List Argument) : Eval Host Value :=
  match Form.ofArguments? builtin args with
  | some form => runFormWith services evaluate frame form
  | none => Eval.fail (.usage (.builtin builtin))

/-- `evalCommand` with services. -/
def evalCommandWith (services : Services Host) (evaluate : Evaluator Host) (place : Place)
    (command : Command) : Eval Host Value := do
  let context ← newBlock place.scope
  let frame : Frame := ⟨place, context⟩
  match Builtin.ofName? command.head.text with
  | some builtin => runBuiltinWith services evaluate frame builtin command.args
  | none => runNamed evaluate frame command.head command.args

/-- `evalCommands` with services. -/
def evalCommandsWith (services : Services Host) (evaluate : Evaluator Host) (place : Place) :
    List Command → Value → Eval Host Value
  | [], last => Eval.pure last
  | command :: rest, _ => do
    let value ← evalCommandWith services evaluate place command
    evalCommandsWith services evaluate place rest value

/-- `evalScript` with services, those of the scripts inside as well. -/
def evalScriptWith (services : Services Host) : Nat → Evaluator Host
  | 0 => fun _ _ => Eval.exhausted
  | depth + 1 => fun script place =>
    evalCommandsWith services (evalScriptWith services depth) place script .nothing

/-! ## The standard services -/

theorem runLoadWith_standard (evaluate : Evaluator Host) (frame : Frame)
    (entries : List (String × Symbol)) :
    runLoadWith .standard evaluate frame entries = runLoad evaluate frame entries := by
  induction entries with
  | nil => rfl
  | cons entry rest ih =>
      rw [runLoadWith, runLoad, ih]
      rfl

theorem runFormWith_standard (evaluate : Evaluator Host) (frame : Frame) (form : Form) :
    runFormWith .standard evaluate frame form = runForm evaluate frame form := by
  cases form with
  | load entries => exact runLoadWith_standard evaluate frame entries
  | _ => rfl

theorem runBuiltinWith_standard (evaluate : Evaluator Host) (frame : Frame) (builtin : Builtin)
    (args : List Argument) :
    runBuiltinWith .standard evaluate frame builtin args =
      runBuiltin evaluate frame builtin args := by
  rw [runBuiltinWith, runBuiltin]
  cases Form.ofArguments? builtin args with
  | some form => exact runFormWith_standard evaluate frame form
  | none => rfl

/-- With the usual services a command is evaluated as usual. -/
theorem evalCommandWith_standard (evaluate : Evaluator Host) (place : Place)
    (command : Command) :
    evalCommandWith .standard evaluate place command = evalCommand evaluate place command := by
  rw [evalCommandWith, evalCommand]
  congr 1
  funext context
  cases Builtin.ofName? command.head.text with
  | some builtin => exact runBuiltinWith_standard evaluate ⟨place, context⟩ builtin command.args
  | none => rfl

theorem evalCommandsWith_standard (evaluate : Evaluator Host) (place : Place)
    (commands : List Command) (last : Value) :
    evalCommandsWith .standard evaluate place commands last =
      evalCommands evaluate place commands last := by
  induction commands generalizing last with
  | nil => rfl
  | cons command rest ih =>
      rw [evalCommandsWith, evalCommands, evalCommandWith_standard]
      congr 1
      funext value
      exact ih value

/-- With the services of the evaluator itself nothing has changed. -/
theorem evalScriptWith_standard (depth : Nat) :
    evalScriptWith .standard depth = (evalScript depth : Evaluator Host) := by
  induction depth with
  | zero => rfl
  | succ depth ih =>
      funext script place
      rw [evalScriptWith, evalScript, ih]
      exact evalCommandsWith_standard _ place script .nothing

end CommandScript.Evaluation
