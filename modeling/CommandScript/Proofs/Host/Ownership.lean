import CommandScript.Proofs.Evaluation.Residence
import CommandScript.Proofs.Evaluation.SecondCheck
import CommandScript.Proofs.Host.Moves

/-!
# Functions run in their own modules

Whatever a host does with a fresh machine, the body of a function runs as part of the module whose
table holds the function, as long as that module is loaded. A module whose import has failed is not
loaded any more. Its functions may have got out before: a body then runs in its module only if the
call itself came from there or through a value of the module, and if nothing else was loaded from
the path in the meantime.
-/

namespace CommandScript.Host

open CommandScript.Machine CommandScript.Evaluation CommandScript.Source

variable {Host : Type}

/-! ## Coherent machines -/

/-- Paths and tables agree at all times: every step of evaluation keeps it so. -/
theorem coherent_upheld : Upheld (Machine.Coherent : Machine Host → Prop) where
  same coherent same := coherent.of_sameModules same
  define coherent _ _ := coherent.define rfl rfl
  addModule coherent _ := coherent.addModule _
  unregister path coherent := coherent.unregister path

open Classical in
/-- Looks whether a module is the one that `OwnerKept` says a body runs in. -/
noncomputable def lookAtOwner (function : Function) (fallback owner : ModuleId) : Eval Host Bool :=
  Eval.read fun machine => decide (machine.OwnerKept function fallback owner)

/-- A look at the module where the body belongs finds it. -/
theorem lookAtOwner_of_kept {machine : Machine Host} {function : Function}
    {fallback owner : ModuleId} (kept : machine.OwnerKept function fallback owner) :
    lookAtOwner function fallback owner machine = .ended (.ok true) machine := by
  simp [lookAtOwner, Eval.read, kept]

/-- `callFunction` with a look at the module that the body is about to run in: if it is not the
right one, another evaluator gets the body. -/
noncomputable def callChecked (stray : Evaluator Host) : Caller Host :=
  fun evaluate function values fallback => do
    requireArity function values.length
    let scope ← enterFunction function values
    let owner ← Eval.read fun machine => (machine.loaded? function.module).getD fallback
    let kept ← lookAtOwner function fallback owner
    if kept then evaluate function.body ⟨scope, owner⟩ else stray function.body ⟨scope, owner⟩

/-- On a coherent machine the look finds the right module. -/
theorem callChecked_alike (stray : Evaluator Host) :
    CallsAlike Machine.Coherent (callChecked stray) callFunction := by
  intro evaluate other likeness function values fallback
  refine .bind (.require _ _) fun _ => ?_
  refine (likeness.upheld.enterFunction function values).bind fun scope => ?_
  intro machine coherent
  let place : Place := ⟨scope, (machine.loaded? function.module).getD fallback⟩
  have kept : machine.OwnerKept function fallback place.module :=
    coherent.ownerKept function fallback
  have body := likeness.scripts function.body place machine coherent
  change ((lookAtOwner function fallback place.module machine).andThen fun kept =>
    if kept then evaluate function.body place else stray function.body place).Alike
      Machine.Coherent (other function.body place machine)
  rw [lookAtOwner_of_kept kept]
  exact body

/-- Function bodies, and all that is inside of them, run in the modules that hold the functions. -/
structure RunAtHome (depth : Nat) (session : Session Host) (moves : List (Move Host)) : Prop where
  /-- Whatever would be done with the bodies that run in another module than `OwnerKept` says, a
  host would see the same, on the same machines: there are no such bodies. -/
  bodies : ∀ stray, play (evalScriptBy (callChecked stray) depth) session moves =
    play (evalScript depth) session moves
  /-- The scripts among the arguments of a command run in the module of the command. -/
  arguments : ∀ (evaluate : Evaluator Host) place args,
    evalAll (within place.module evaluate) place args = evalAll evaluate place args
  /-- So do those of a built-in command, unless it loads modules. -/
  forms : ∀ (evaluate : Evaluator Host) frame form, (∀ entries, form ≠ .load entries) →
    runForm (within frame.caller.module evaluate) frame form = runForm evaluate frame form
  /-- A head that is neither built in nor bound is looked up in the table of that module. -/
  heads : ∀ (evaluate : Evaluator Host) place command machine,
    Builtin.ofName? command.head.text = none →
    (machine.scopes.addBlock place.scope).lookup machine.scopes.next command.head = none →
    evalCommand evaluate place command machine =
      (Eval.ofOption (machine.function? place.module command.head)
          (.commandNotFound command.head) >>= fun function =>
        invoke evaluate function command.args ⟨machine.scopes.next, place.module⟩ place.module)
        { machine with scopes := machine.scopes.addBlock place.scope }

/-- Whatever moves a host plays, a function runs in its own module, as far as that is in the table.
-/
theorem play_runAtHome (settings : Settings) (loader : Option (Loader Host)) (host : Host)
    (depth : Nat) (moves : List (Move Host)) :
    RunAtHome depth (freshSession settings loader host) moves where
  bodies stray := by
    rw [← evalScriptBy_callFunction]
    have coherent := coherent_new settings loader host
    have likeness := CallsAlike.evalScriptBy (callChecked_alike stray) coherent_upheld depth
    exact play_alike likeness (sessionsAlike_start coherent) moves
  arguments := evalAll_within
  forms := runForm_within
  heads := evalCommand_unbound

/-! ## A function that outlives its module -/

namespace Escape

/-- A word as a symbol. -/
def word (text : String) (wellFormed : isSymbolText text.toList = true := by decide) : Symbol :=
  ⟨text, wellFormed⟩

/-- The head that calls a built-in command. -/
def head (builtin : Builtin) : Symbol :=
  ⟨builtin.name, by cases builtin <;> decide⟩

/-- A command that imports a module under a name that is also its path. -/
def importing (name : Symbol) : Command :=
  .mk (head .load) [.list [.list [.text name.text, .symbol name]]]

/-- A command that defines a function without parameters. -/
def defining (name : Symbol) (body : Script) : Command :=
  .mk (head .function) [.symbol name, .list [], .script body]

/-- A command that binds a name to the value of an argument. -/
def binding (name : Symbol) (value : Argument) : Command :=
  .mk (head .define) [.variable name, value]

/-- A module that imports another one, lets it have the function `user`, and then fails. The
function needs one that only this module defines. -/
def giver : Script :=
  [defining (word "helper") [],
    binding (word "user") (.script [defining (word "user") [.mk (word "helper") []]]),
    defining (word "get") [binding (word "it") (.variable (word "user"))],
    importing (word "taker"),
    .mk (word "fail") []]

/-- A module that keeps a function of the first one under a name of its own. -/
def taker : Script :=
  [importing (word "giver"),
    binding (word "kept") (.script [.mk (word "giver") [.symbol (word "get")]]),
    defining (word "call") [.mk (word "kept") []]]

/-- A machine with the two modules, each of which imports the other. -/
def bothWays : Machine Unit :=
  let modules : Loader.Memory := ⟨[("giver", .tree giver), ("taker", .tree taker)]⟩
  .new Settings.default (some (.ofFunction modules.load)) ()

/-- The first module, with the identifier 1, fails; the second, with the identifier 2, is loaded and
calls the function it has kept. The body then runs in the second module, not in the first one, whose
table holds the function, and does not find the helper. -/
theorem body_strays_after_failed_import :
    let failed := (runScript bothWays [importing (word "giver")]).machine
    let called := runScript failed
      [importing (word "taker"), .mk (word "taker") [.symbol (word "call")]]
    (failed.function? 1 (word "helper")).isSome = true ∧
      (failed.function? 1 (word "user")).map (fun function =>
        (failed.loaded? function.module).getD 2) = some 2 ∧
      called.ending? = some (.error (.failed (.commandNotFound (word "helper")))) := by
  decide +kernel

end Escape

end CommandScript.Host
