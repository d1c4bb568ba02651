import CommandScript.Evaluation.Form
import CommandScript.Evaluation.Run

/-!
# Evaluation of scripts

A script is evaluated in a scope, as part of a module; its value is that of its last command. Every
command gets a scope of its own below the one it stands in, where its arguments are evaluated. A
head is looked for among the built-in commands, then in the scopes, then among the functions of the
module.

The evaluators of arguments, calls and built-in commands are given the evaluator of the scripts
inside them. `evalScript` ties the knot: it is bounded by how deeply scripts may be nested while
they run.
-/

namespace CommandScript.Evaluation

open CommandScript.Machine CommandScript.Source

/-- Where a script is evaluated: a scope, and the module it belongs to. -/
structure Place where
  scope : ScopeId
  module : ModuleId
deriving DecidableEq, Repr

/-- What evaluates a script at a place. -/
abbrev Evaluator (Host : Type) : Type :=
  Script → Place → Eval Host Value

variable {Host : Type}

/-! ## Scopes -/

/-- Makes a block below a scope. -/
def newBlock (parent : ScopeId) : Eval Host ScopeId :=
  fun machine =>
    .ended (.ok machine.scopes.next) { machine with scopes := machine.scopes.addBlock parent }

/-- Binds a name in a scope, bound already or not. -/
def assign (scope : ScopeId) (name : Symbol) (value : Value) : Eval Host Unit :=
  Eval.modify fun machine => { machine with scopes := machine.scopes.assign scope name value }

/-- Binds a name in a scope that does not bind it. -/
def bindFresh (scope : ScopeId) (name : Symbol) (value : Value) (error : EvalError) :
    Eval Host Unit :=
  fun machine =>
    match machine.scopes.bind? scope name value with
    | some scopes => .ended (.ok ()) { machine with scopes := scopes }
    | none => .ended (.error (.failed error)) machine

/-- Fails if a scope binds a name itself. -/
def requireFree (scope : ScopeId) (name : Symbol) (error : EvalError) : Eval Host Unit := do
  let free ← Eval.read fun machine => machine.scopes.isFree scope name
  Eval.require free error

/-- Evaluates a script in a block of its own. -/
def inBlock (evaluate : Evaluator Host) (script : Script) (place : Place) : Eval Host Value := do
  let scope ← newBlock place.scope
  evaluate script { place with scope := scope }

/-! ## Arguments -/

/-- The value of a variable. -/
def variableValue (scope : ScopeId) (name : Symbol) : Eval Host Value := do
  let found ← Eval.read fun machine => machine.scopes.lookup scope name
  Eval.ofOption found (.unboundVariable name)

mutual

/-- The value of an argument. -/
def evalArgument (evaluate : Evaluator Host) (place : Place) : Argument → Eval Host Value
  | .symbol symbol => Eval.pure (.symbol symbol)
  | .number value => Eval.pure (.number value)
  | .text text => Eval.pure (.text text)
  | .variable name => variableValue place.scope name
  | .script commands => inBlock evaluate commands place
  | .list items => do
    let encoded ← evalItems evaluate place items
    return .list (Sequence.ofList encoded)

/-- The items of a list, each evaluated and encoded before the next. -/
def evalItems (evaluate : Evaluator Host) (place : Place) :
    List Argument → Eval Host (List Argument)
  | [] => Eval.pure []
  | item :: rest => do
    let value ← evalArgument evaluate place item
    let first ← Eval.ofExcept value.encode
    let others ← evalItems evaluate place rest
    return first :: others

end

/-- The values of arguments from left to right. -/
def evalAll (evaluate : Evaluator Host) (place : Place) : List Argument → Eval Host (List Value)
  | [] => Eval.pure []
  | arg :: rest => do
    let first ← evalArgument evaluate place arg
    let others ← evalAll evaluate place rest
    return first :: others

/-! ## Calls -/

/-- Fails unless a function takes the given number of arguments. -/
def requireArity (function : Function) (got : Nat) : Eval Host Unit :=
  Eval.require (got = function.params.length)
    (.arityMismatch function.name function.params.length got)

/-- Makes the scope of a function body and binds the parameters in it, in order. -/
def enterFunction (function : Function) (values : List Value) : Eval Host ScopeId :=
  fun machine =>
    let scope := machine.scopes.next
    let scopes :=
      (function.params.zip values).foldl
        (fun scopes binding => scopes.assign scope binding.1 binding.2)
        (machine.scopes.addFunction function.closure)
    .ended (.ok scope) { machine with scopes := scopes }

/-- The body of a function, run with values for its parameters as part of the module that owns it:
the loaded module of its path, or the given one if there is none. -/
def callFunction (evaluate : Evaluator Host) (function : Function) (values : List Value)
    (fallback : ModuleId) : Eval Host Value := do
  requireArity function values.length
  let scope ← enterFunction function values
  let owner ← Eval.read fun machine => (machine.loaded? function.module).getD fallback
  evaluate function.body ⟨scope, owner⟩

/-- A function called with arguments, which are evaluated only if their number is right. -/
def invoke (evaluate : Evaluator Host) (function : Function) (args : List Argument) (place : Place)
    (fallback : ModuleId) : Eval Host Value := do
  requireArity function args.length
  let values ← evalAll evaluate place args
  callFunction evaluate function values fallback

/-- A host process called with values. -/
def callProcess (id : ProcessId) (name : String) (values : List Value) : Eval Host Value :=
  fun machine =>
    match machine.processes[id]? with
    | none => .ended (.error (.failed (.notCallable name))) machine
    | some process =>
      let (result, host) := process.run ⟨values, machine.counts⟩ machine.host
      match result with
      | .ok value => .ended (.ok value) { machine with host := host }
      | .error error => .ended (.error (.failed error)) { machine with host := host }

/-- A module called with the name of one of its functions and that function's arguments. -/
def callModule (evaluate : Evaluator Host) (target : ModuleId) (args : List Argument)
    (place : Place) : Eval Host Value :=
  match args with
  | .symbol name :: rest => do
    let found ← Eval.read fun machine => machine.function? target name
    let function ← Eval.ofOption found (.commandNotFound name)
    invoke evaluate function rest place target
  | _ => Eval.fail (.usage .moduleFunction)

/-- A value called under the head that it was found by. -/
def callValue (evaluate : Evaluator Host) (value : Value) (head : Symbol) (args : List Argument)
    (place : Place) : Eval Host Value :=
  match value with
  | .function function => invoke evaluate function args place place.module
  | .process id name => do
    let values ← evalAll evaluate place args
    callProcess id name values
  | .module target _ => callModule evaluate target args place
  | other => Eval.fail (.notCallable (head.text ++ " (" ++ other.kind.name ++ ")"))

/-! ## Built-in commands -/

/-- A command with the scope it stands in and the scope that was made for it alone. -/
structure Frame where
  caller : Place
  context : ScopeId

/-- Where the arguments of the command are evaluated. -/
def Frame.inside (frame : Frame) : Place :=
  { frame.caller with scope := frame.context }

/-- Binds a name in the scope of the caller. -/
def runDefine (evaluate : Evaluator Host) (frame : Frame) (name : Symbol) (value : Argument) :
    Eval Host Value := do
  requireFree frame.caller.scope name (.alreadyBound name)
  let value ← evalArgument evaluate frame.inside value
  bindFresh frame.caller.scope name value (.alreadyBound name)
  return value

/-- The condition that an argument or a script yields. -/
def truthOf (value : Value) : Eval Host Bool :=
  Eval.ofExcept value.toBool

/-- One of two scripts, or false if there is none to run. -/
def runChoose (evaluate : Evaluator Host) (frame : Frame) (condition : Argument)
    (consequence : Script) (alternative : Option Script) : Eval Host Value := do
  let value ← evalArgument evaluate frame.inside condition
  let holds ← truthOf value
  if holds then inBlock evaluate consequence frame.caller
  else
    match alternative with
    | some script => inBlock evaluate script frame.caller
    | none => return .ofBool false

/-- The body of the first clause whose condition holds, or false. -/
def runSelect (evaluate : Evaluator Host) (frame : Frame) : List Clause → Eval Host Value
  | [] => Eval.pure (.ofBool false)
  | clause :: rest =>
    match clause.condition with
    | none => inBlock evaluate clause.body frame.caller
    | some condition => do
      let value ← inBlock evaluate condition frame.caller
      let holds ← truthOf value
      if holds then inBlock evaluate clause.body frame.caller else runSelect evaluate frame rest

/-- The body in the scope of the caller itself, if the condition holds, or false. -/
def runGuard (evaluate : Evaluator Host) (frame : Frame) (condition body : Script) :
    Eval Host Value := do
  let value ← inBlock evaluate condition frame.caller
  let holds ← truthOf value
  if holds then evaluate body frame.caller else return .ofBool false

/-- The greatest magnitude of a bound of a loop: below it all whole numbers are exact. -/
def loopLimit : Float := 9007199254740992.0

/-- The body for each value of the counter, of which the given number are left, and the encoded
results in order. -/
def iterate (evaluate : Evaluator Host) (place : Place) (counter : Symbol) (first step : Float)
    (body : Script) : Nat → Nat → Sequence Argument → Eval Host (Sequence Argument)
  | 0, _, results => Eval.pure results
  | left + 1, index, results => do
    let scope ← newBlock place.scope
    assign scope counter (.number (first + step * index.toUInt64.toFloat))
    let value ← evaluate body { place with scope := scope }
    let result ← Eval.ofExcept value.encode
    iterate evaluate place counter first step body left (index + 1) (results.push result)

/-- The number of values of a counter between two bounds. -/
def loopCount (first last : Float) : Nat :=
  (last - first).abs.toUInt64.toNat + 1

/-- A number that an argument yields. -/
def numberOf (evaluate : Evaluator Host) (place : Place) (arg : Argument) : Eval Host Float := do
  let value ← evalArgument evaluate place arg
  Eval.ofExcept value.toNumber

/-- The body once for each whole step from the first bound to the last. -/
def runLoop (evaluate : Evaluator Host) (frame : Frame) (counter : Symbol) (first last : Argument)
    (body : Script) : Eval Host Value := do
  let first ← numberOf evaluate frame.inside first
  let last ← numberOf evaluate frame.inside last
  Eval.require (Decimal.isFinite first && Decimal.isFinite last) (.cast .number .finiteNumber)
  Eval.require (!(first.abs > loopLimit || last.abs > loopLimit)) (.cast .number .exactRange)
  let step : Float := if first ≤ last then 1.0 else -1.0
  let results ←
    iterate evaluate frame.caller counter first step body (loopCount first last) 0 Sequence.empty
  return .list results

/-- Defines a function in the current module. -/
def runFunction (frame : Frame) (name : Symbol) (params : List Argument) (body : Script) :
    Eval Host Value := do
  let inside ← Eval.read fun machine => machine.scopes.insideFunction frame.caller.scope
  Eval.require (!inside) (.nestedFunction name)
  let params ← Eval.ofOption (params.mapM param?) (.usage (.builtin .function))
  let function : Function ← Eval.read fun machine =>
    { id := machine.nextFunction
      name := name
      module := machine.modulePath frame.caller.module
      closure := frame.caller.scope
      params := params
      body := body }
  let known ← Eval.read fun machine => (machine.function? frame.caller.module name).isSome
  Eval.require (!known) (.alreadyBound name)
  Eval.modify fun machine => machine.define frame.caller.module function
  return .function function

/-- The module of a path. One that is not loaded yet is registered, and its script is run; if that
fails the module is no longer registered. -/
def loadModule (evaluate : Evaluator Host) (path : String) : Eval Host ModuleId :=
  fun machine =>
    match machine.loaded? path with
    | some id => .ended (.ok id) machine
    | none =>
      match machine.loader with
      | none => .ended (.error (.failed .noLoader)) machine
      | some load =>
        let (result, host) := load path machine.host
        let consulted := { machine with host := host }
        match result with
        | .error error => .ended (.error (.failed (.load error))) consulted
        | .ok script =>
          let id := consulted.modules.size
          let place : Place := ⟨consulted.scopes.next, id⟩
          ((evaluate script place (consulted.addModule path)).onHalt
            fun failed => failed.unregister path).andThen fun _ => Eval.pure id

/-- Loads modules in order and binds each in the scope of the caller. -/
def runLoad (evaluate : Evaluator Host) (frame : Frame) : List (String × Symbol) → Eval Host Value
  | [] => Eval.pure (.ofBool true)
  | (path, name) :: rest => do
    let wrap (cause : EvalError) : EvalError := .moduleLoad path name cause
    let canLoad ← Eval.read fun machine => machine.loader.isSome
    Eval.require canLoad (wrap .noLoader)
    requireFree frame.caller.scope name (wrap (.alreadyBound name))
    let id ← Eval.mapError (loadModule evaluate path) wrap
    bindFresh frame.caller.scope name (.module id path) (wrap (.alreadyBound name))
    runLoad evaluate frame rest

/-- What a printing command goes on with when its push has ended. -/
def printed (outcome : Mailbox.Outcome Value) (machine : Machine Host) : Run Host Value :=
  match outcome with
  | .ok _ => .ended (.ok (.ofBool true)) machine
  | .error failure => .ended (.error (.failed (.mailbox failure))) machine

/-- Pushes a value and waits until the push has ended. -/
def pushAndWait (mailbox : MailboxId) (value : Value) : Eval Host Value :=
  fun machine =>
    match machine.push mailbox value (some printToken) with
    | (after, .ended outcome) => printed outcome after
    | (after, .waiting pending) => .waiting mailbox pending after printed

/-- The line that is printed for values. -/
def printedLine (values : List Value) : String :=
  String.intercalate " " (values.map Value.render) ++ "\n"

/-- Prints values on the mailbox that the name of a channel is bound to. -/
def runPrint (evaluate : Evaluator Host) (frame : Frame) (channel : Symbol) (args : List Argument) :
    Eval Host Value := do
  let values ← evalAll evaluate frame.inside args
  let found ← Eval.read fun machine => machine.scopes.lookup frame.context channel
  let mailbox ← Eval.ofOption (found.bind Value.mailbox?) (.channelNotFound channel)
  pushAndWait mailbox (.text (printedLine values))

/-- A built-in command. -/
def runForm (evaluate : Evaluator Host) (frame : Frame) : Form → Eval Host Value
  | .define name value => runDefine evaluate frame name value
  | .choose condition consequence alternative =>
    runChoose evaluate frame condition consequence alternative
  | .select clauses => runSelect evaluate frame clauses
  | .guard condition body => runGuard evaluate frame condition body
  | .loop counter first last body => runLoop evaluate frame counter first last body
  | .function name params body => runFunction frame name params body
  | .load entries => runLoad evaluate frame entries
  | .print channel args => runPrint evaluate frame channel args
  | .block body => inBlock evaluate body frame.caller
  | .truth value => Eval.pure (.ofBool value)

/-- A built-in command with arguments that may not have its form. -/
def runBuiltin (evaluate : Evaluator Host) (frame : Frame) (builtin : Builtin)
    (args : List Argument) : Eval Host Value :=
  match Form.ofArguments? builtin args with
  | some form => runForm evaluate frame form
  | none => Eval.fail (.usage (.builtin builtin))

/-! ## Commands and scripts -/

/-- A command whose head is not built in. -/
def runNamed (evaluate : Evaluator Host) (frame : Frame) (head : Symbol) (args : List Argument) :
    Eval Host Value := do
  let bound ← Eval.read fun machine => machine.scopes.lookup frame.context head
  match bound with
  | some value => callValue evaluate value head args frame.inside
  | none =>
    let defined ← Eval.read fun machine => machine.function? frame.caller.module head
    let function ← Eval.ofOption defined (.commandNotFound head)
    invoke evaluate function args frame.inside frame.caller.module

/-- A command. -/
def evalCommand (evaluate : Evaluator Host) (place : Place) (command : Command) :
    Eval Host Value := do
  let context ← newBlock place.scope
  let frame : Frame := ⟨place, context⟩
  match Builtin.ofName? command.head.text with
  | some builtin => runBuiltin evaluate frame builtin command.args
  | none => runNamed evaluate frame command.head command.args

/-- Commands in order, where `last` is the value of the command before them. -/
def evalCommands (evaluate : Evaluator Host) (place : Place) :
    List Command → Value → Eval Host Value
  | [], last => Eval.pure last
  | command :: rest, _ => do
    let value ← evalCommand evaluate place command
    evalCommands evaluate place rest value

/-- A script, with scripts nested in its run up to the given depth. -/
def evalScript : Nat → Evaluator Host
  | 0 => fun _ _ => Eval.exhausted
  | depth + 1 => fun script place => evalCommands (evalScript depth) place script .nothing

end CommandScript.Evaluation
