import CommandScript.Proofs.Evaluation.Likeness
import CommandScript.Proofs.Evaluation.Residence
import CommandScript.Proofs.Evaluation.SecondCheck
import CommandScript.Proofs.Evaluation.Shape
import CommandScript.Proofs.Machine.Lineage

/-!
# Rejected commands

Some commands fail by what can be told before anything is evaluated: arguments that are not of the
shape of a built-in command, names that are taken, heads that call nothing, calls with the wrong
number of arguments. Such a command leaves nothing behind but the empty block that every command
gets. It depends on the scopes, on the tables of functions and on whether there is a loader, but not
on what the evaluation of scripts, the processes or the loader would do.
-/

namespace CommandScript.Evaluation

open CommandScript.Machine CommandScript.Source

variable {Host : Type} {machine other : Machine Host} {place : Place} {command : Command}
  {error : EvalError}

/-! ## Causes -/

/-- What a command at a place finds under a name: in the block that is made for it, or above. -/
def Place.finds? (place : Place) (machine : Machine Host) (name : Symbol) : Option Value :=
  (machine.scopes.addBlock place.scope).lookup machine.scopes.next name

/-- The values that can be called. -/
inductive IsCallable : Value → Prop where
  | function (function : Function) : IsCallable (.function function)
  | process (id : ProcessId) (name : String) : IsCallable (.process id name)
  | module (id : ModuleId) (path : String) : IsCallable (.module id path)

/-- The head calls none of the built-in commands. -/
def IsForeign (head : Symbol) : Prop :=
  ∀ builtin : Builtin, head.text ≠ builtin.name

/-- The commands that are rejected at a place, and why. -/
inductive Rejected (machine : Machine Host) (place : Place) : Command → EvalError → Prop where
  /-- The arguments are not of the shape of the command. -/
  | malformed {builtin : Builtin} {head : Symbol} {args : List Argument}
    (called : head.text = builtin.name) (malformed : ∀ form, ¬Shaped builtin args form) :
    Rejected machine place (.mk head args) (.usage (.builtin builtin))
  /-- The scope of the caller binds the name itself. -/
  | bound {head name : Symbol} {value : Argument} (called : head.text = Builtin.define.name)
    (taken : machine.scopes.isFree place.scope name = false) :
    Rejected machine place (.mk head [.variable name, value]) (.alreadyBound name)
  | nested {head name : Symbol} {params : List Argument} {body : Script}
    (called : head.text = Builtin.function.name)
    (inside : machine.scopes.insideFunction place.scope = true) :
    Rejected machine place (.mk head [.symbol name, .list params, .script body])
      (.nestedFunction name)
  /-- A parameter is no variable. -/
  | parameter {head name : Symbol} {params : List Argument} {bad : Argument} {body : Script}
    (called : head.text = Builtin.function.name)
    (outside : machine.scopes.insideFunction place.scope = false) (member : bad ∈ params)
    (malformed : ∀ param, ¬IsParam bad param) :
    Rejected machine place (.mk head [.symbol name, .list params, .script body])
      (.usage (.builtin .function))
  /-- The module has a function of that name. -/
  | defined {head name : Symbol} {params : List Argument} {names : List Symbol} {body : Script}
    {known : Function} (called : head.text = Builtin.function.name)
    (outside : machine.scopes.insideFunction place.scope = false)
    (each : List.Forall₂ IsParam params names)
    (found : machine.function? place.module name = some known) :
    Rejected machine place (.mk head [.symbol name, .list params, .script body])
      (.alreadyBound name)
  | unloadable {head name : Symbol} {path : String} {entries : List Argument}
    {rest : List (String × Symbol)} (called : head.text = Builtin.load.name)
    (each : List.Forall₂ IsEntry entries ((path, name) :: rest)) (absent : machine.loader = none) :
    Rejected machine place (.mk head [.list entries]) (.moduleLoad path name .noLoader)
  /-- The first name is one that the scope of the caller binds itself. -/
  | taken {head name : Symbol} {path : String} {entries : List Argument}
    {rest : List (String × Symbol)} (called : head.text = Builtin.load.name)
    (each : List.Forall₂ IsEntry entries ((path, name) :: rest))
    (present : machine.loader.isSome = true)
    (taken : machine.scopes.isFree place.scope name = false) :
    Rejected machine place (.mk head [.list entries]) (.moduleLoad path name (.alreadyBound name))
  | unknown {head : Symbol} {args : List Argument} (foreign : IsForeign head)
    (unbound : place.finds? machine head = none)
    (missing : machine.function? place.module head = none) :
    Rejected machine place (.mk head args) (.commandNotFound head)
  | uncallable {head : Symbol} {args : List Argument} {value : Value} (foreign : IsForeign head)
    (found : place.finds? machine head = some value) (uncallable : ¬IsCallable value) :
    Rejected machine place (.mk head args)
      (.notCallable (head.text ++ " (" ++ value.kind.name ++ ")"))
  /-- A module is given no name of a function. -/
  | unnamed {head : Symbol} {args : List Argument} {target : ModuleId} {path : String}
    (foreign : IsForeign head) (found : place.finds? machine head = some (.module target path))
    (nameless : ∀ name rest, args ≠ .symbol name :: rest) :
    Rejected machine place (.mk head args) (.usage .moduleFunction)
  /-- A module has no function of the name it is given. -/
  | missing {head name : Symbol} {args : List Argument} {target : ModuleId} {path : String}
    (foreign : IsForeign head) (found : place.finds? machine head = some (.module target path))
    (missing : machine.function? target name = none) :
    Rejected machine place (.mk head (.symbol name :: args)) (.commandNotFound name)
  /-- A function that is called by its value is given the wrong number of arguments. -/
  | arityOfValue {head : Symbol} {args : List Argument} {function : Function}
    (foreign : IsForeign head) (found : place.finds? machine head = some (.function function))
    (wrong : args.length ≠ function.params.length) :
    Rejected machine place (.mk head args)
      (.arityMismatch function.name function.params.length args.length)
  /-- A function that is called by its name is. -/
  | arityOfName {head : Symbol} {args : List Argument} {function : Function}
    (foreign : IsForeign head) (unbound : place.finds? machine head = none)
    (found : machine.function? place.module head = some function)
    (wrong : args.length ≠ function.params.length) :
    Rejected machine place (.mk head args)
      (.arityMismatch function.name function.params.length args.length)
  /-- A function that is called through its module is. -/
  | arityInModule {head name : Symbol} {args : List Argument} {target : ModuleId} {path : String}
    {function : Function} (foreign : IsForeign head)
    (found : place.finds? machine head = some (.module target path))
    (known : machine.function? target name = some function)
    (wrong : args.length ≠ function.params.length) :
    Rejected machine place (.mk head (.symbol name :: args))
      (.arityMismatch function.name function.params.length args.length)

/-- Two machines have the same scopes and modules, and both or neither can load. -/
structure Poses (machine other : Machine Host) : Prop where
  scopes : other.scopes = machine.scopes
  modules : other.modules = machine.modules
  loader : other.loader.isSome = machine.loader.isSome

/-- The functions of the modules are the same. -/
theorem Poses.function? (poses : Poses machine other) (id : ModuleId) (name : Symbol) :
    other.function? id name = machine.function? id name := by
  rw [Machine.function?, Machine.function?, Machine.module?, Machine.module?, poses.modules]

/-- The same names are found. -/
theorem Poses.finds? (poses : Poses machine other) (place : Place) (name : Symbol) :
    place.finds? other name = place.finds? machine name := by
  rw [Place.finds?, Place.finds?, poses.scopes]

/-- What is rejected on one of them is rejected on the other for the same reason. -/
theorem Rejected.poses (rejected : Rejected machine place command error)
    (poses : Poses machine other) : Rejected other place command error := by
  cases rejected with
  | malformed called malformed => exact .malformed called malformed
  | bound called taken => exact .bound called (poses.scopes ▸ taken)
  | nested called inside => exact .nested called (poses.scopes ▸ inside)
  | parameter called outside member malformed =>
      exact .parameter called (poses.scopes ▸ outside) member malformed
  | defined called outside each found =>
      exact .defined called (poses.scopes ▸ outside) each ((poses.function? ..).trans found)
  | unloadable called each absent =>
      have unloaded : other.loader.isSome = false := by
        rw [poses.loader, absent]
        rfl
      exact .unloadable called each (by simpa using unloaded)
  | taken called each present taken =>
      exact .taken called each (poses.loader.trans present) (poses.scopes ▸ taken)
  | unknown foreign unbound missing =>
      exact .unknown foreign ((poses.finds? ..).trans unbound) ((poses.function? ..).trans missing)
  | uncallable foreign found uncallable =>
      exact .uncallable foreign ((poses.finds? ..).trans found) uncallable
  | unnamed foreign found nameless =>
      exact .unnamed foreign ((poses.finds? ..).trans found) nameless
  | missing foreign found missing =>
      exact .missing foreign ((poses.finds? ..).trans found) ((poses.function? ..).trans missing)
  | arityOfValue foreign found wrong =>
      exact .arityOfValue foreign ((poses.finds? ..).trans found) wrong
  | arityOfName foreign unbound found wrong =>
      exact .arityOfName foreign ((poses.finds? ..).trans unbound)
        ((poses.function? ..).trans found) wrong
  | arityInModule foreign found known wrong =>
      exact .arityInModule foreign ((poses.finds? ..).trans found)
        ((poses.function? ..).trans known) wrong

/-! ## How a command is dispatched -/

/-- The machine on which a command has been given its block. -/
def entered (machine : Machine Host) (place : Place) : Machine Host :=
  { machine with scopes := machine.scopes.addBlock place.scope }

/-- The place of the caller with the block of the command. -/
def frameOf (machine : Machine Host) (place : Place) : Frame :=
  ⟨place, machine.scopes.next⟩

/-- A foreign head calls no built-in command. -/
theorem IsForeign.ofName? {head : Symbol} (foreign : IsForeign head) :
    Builtin.ofName? head.text = none := by
  rw [Builtin.ofName?, List.find?_eq_none]
  intro builtin _ same
  exact foreign builtin (beq_iff_eq.mp same).symm

section Dispatch

variable (evaluate : Evaluator Host) {head : Symbol} {args : List Argument}

/-- The name of a built-in command calls it, whatever else has that name. -/
theorem evalCommand_of_called {builtin : Builtin} (machine : Machine Host) (place : Place)
    (called : head.text = builtin.name) :
    evalCommand evaluate place (.mk head args) machine =
      runBuiltin evaluate (frameOf machine place) builtin args (entered machine place) := by
  rw [evalCommand, Command.head, called, Builtin.ofName?_name]
  rfl

/-- A built-in command whose arguments are of its shape. -/
theorem evalCommand_of_shaped {builtin : Builtin} {form : Form} (machine : Machine Host)
    (place : Place) (called : head.text = builtin.name) (shaped : Shaped builtin args form) :
    evalCommand evaluate place (.mk head args) machine =
      runForm evaluate (frameOf machine place) form (entered machine place) := by
  rw [evalCommand_of_called evaluate machine place called, runBuiltin,
    Form.ofArguments?_eq_some_iff.mpr shaped]

/-- A definition of a proper form is carried out. -/
theorem evalCommand_function {name : Symbol} {params : List Argument} {body : Script}
    (machine : Machine Host) (place : Place) (called : head.text = Builtin.function.name) :
    evalCommand evaluate place (.mk head [.symbol name, .list params, .script body]) machine =
      runFunction (frameOf machine place) name params body (entered machine place) :=
  evalCommand_of_shaped evaluate machine place called (.function name params body)

/-- A head that is found in the scopes calls the value that it is bound to. -/
theorem evalCommand_of_found {value : Value} (foreign : IsForeign head)
    (found : place.finds? machine head = some value) :
    evalCommand evaluate place (.mk head args) machine =
      callValue evaluate value head args (frameOf machine place).inside (entered machine place) := by
  rw [evalCommand, Command.head, foreign.ofName?]
  change runNamed evaluate (frameOf machine place) head args (entered machine place) = _
  have bound : (entered machine place).scopes.lookup (frameOf machine place).context head =
      some value := found
  simp only [runNamed, Bind.bind, Eval.bind, Eval.read, Run.andThen, bound]

/-- A module that is given a name calls the function that it defines under that name. -/
theorem evalCommand_of_module {name : Symbol} {target : ModuleId} {path : String}
    (foreign : IsForeign head) (found : place.finds? machine head = some (.module target path)) :
    evalCommand evaluate place (.mk head (.symbol name :: args)) machine =
      (Eval.ofOption (machine.function? target name) (.commandNotFound name) >>= fun found =>
        invoke evaluate found args (frameOf machine place).inside target)
        (entered machine place) :=
  evalCommand_of_found evaluate foreign found

/-- A head that is not found there names a function of the module of the place. -/
theorem evalCommand_of_not_found (foreign : IsForeign head)
    (unbound : place.finds? machine head = none) :
    evalCommand evaluate place (.mk head args) machine =
      (Eval.ofOption (machine.function? place.module head) (.commandNotFound head) >>= fun found =>
        invoke evaluate found args (frameOf machine place).inside place.module)
        (entered machine place) :=
  evalCommand_unbound evaluate place (.mk head args) machine foreign.ofName? unbound

/-- The number of arguments is looked at before the arguments are. -/
theorem invoke_of_wrong {function : Function} (wrong : args.length ≠ function.params.length)
    (place : Place) (fallback : ModuleId) (machine : Machine Host) :
    invoke evaluate function args place fallback machine =
      .ended (.error (.failed (.arityMismatch function.name function.params.length args.length)))
        machine := by
  have fails : requireArity function args.length machine =
      .ended (.error (.failed (.arityMismatch function.name function.params.length args.length)))
        machine := by
    rw [requireArity, Eval.require, if_neg (by simpa using wrong)]
    rfl
  change (requireArity function args.length machine).andThen _ = _
  rw [fails]
  rfl

/-- A name that is taken is refused at once. -/
theorem requireFree_of_taken {scope : ScopeId} {name : Symbol}
    (taken : machine.scopes.isFree scope name = false) (error : EvalError) :
    requireFree scope name error machine = .ended (.error (.failed error)) machine := by
  change Eval.require (machine.scopes.isFree scope name) error machine = _
  rw [taken]
  rfl

end Dispatch

/-! ## Rejection -/

/-- A rejected command fails, on the machine with a further block. -/
theorem evalCommand_of_rejected (evaluate : Evaluator Host)
    (rejected : Rejected machine place command error) :
    evalCommand evaluate place command machine =
      .ended (.error (.failed error)) (entered machine place) := by
  have free (name : Symbol) : (entered machine place).scopes.isFree place.scope name =
      machine.scopes.isFree place.scope name :=
    Scopes.isFree_addBlock ..
  have within : (entered machine place).scopes.insideFunction (frameOf machine place).caller.scope =
      machine.scopes.insideFunction place.scope :=
    Scopes.insideFunction_addBlock_self ..
  cases rejected with
  | malformed called malformed =>
      rw [evalCommand_of_called evaluate machine place called, runBuiltin,
        Form.ofArguments?_eq_none_iff.mpr malformed]
      rfl
  | @bound _ name value called taken =>
      rw [evalCommand_of_shaped evaluate machine place called (.define name value)]
      change (requireFree place.scope name _ (entered machine place)).andThen _ = _
      rw [requireFree_of_taken ((free name).trans taken)]
      rfl
  | @nested _ name params body called inside =>
      rw [evalCommand_function evaluate machine place called, runFunction_apply, within, inside]
      rfl
  | @parameter _ name params bad body called outside member malformed =>
      have unread : params.mapM param? = none :=
        mapM_eq_none_of_mem param?_eq_some_iff member malformed
      rw [evalCommand_function evaluate machine place called, runFunction_apply, within, outside,
        unread]
      rfl
  | @defined _ name params names body known called outside each found =>
      have read : params.mapM param? = some names := (mapM_eq_some_iff param?_eq_some_iff).mpr each
      have defined : (entered machine place).function? (frameOf machine place).caller.module name =
          some known := found
      rw [evalCommand_function evaluate machine place called, runFunction_apply, within, outside,
        read, defined]
      rfl
  | unloadable called each absent =>
      rw [evalCommand_of_shaped evaluate machine place called (.load each)]
      change (Eval.require machine.loader.isSome _ (entered machine place)).andThen _ = _
      rw [absent]
      rfl
  | @taken _ name path _ rest called each present taken =>
      have loads : runLoad evaluate (frameOf machine place) ((path, name) :: rest)
          (entered machine place) = _ :=
        runLoad_of_loader evaluate _ name path rest present
      refine ((evalCommand_of_shaped evaluate machine place called (.load each)).trans loads).trans ?_
      change (requireFree place.scope name _ (entered machine place)).andThen _ = _
      rw [requireFree_of_taken ((free name).trans taken)]
      rfl
  | unknown foreign unbound missing =>
      rw [evalCommand_of_not_found evaluate foreign unbound, missing]
      rfl
  | @uncallable _ _ value foreign found uncallable =>
      rw [evalCommand_of_found evaluate foreign found]
      cases value with
      | function function => exact absurd (.function function) uncallable
      | process id name => exact absurd (.process id name) uncallable
      | module id path => exact absurd (.module id path) uncallable
      | _ => rfl
  | unnamed foreign found nameless =>
      rw [evalCommand_of_found evaluate foreign found, callValue, callModule.eq_def]
      split
      · rename_i name rest
        exact absurd rfl (nameless name rest)
      · rfl
  | missing foreign found missing =>
      rw [evalCommand_of_module evaluate foreign found, missing]
      rfl
  | arityOfValue foreign found wrong =>
      rw [evalCommand_of_found evaluate foreign found]
      exact invoke_of_wrong evaluate wrong ..
  | arityOfName foreign unbound found wrong =>
      rw [evalCommand_of_not_found evaluate foreign unbound, found]
      exact invoke_of_wrong evaluate wrong ..
  | arityInModule foreign found known wrong =>
      rw [evalCommand_of_module evaluate foreign found, known]
      exact invoke_of_wrong evaluate wrong ..

/-- What is left of a rejected command. -/
structure Refused (machine : Machine Host) (place : Place) (command : Command)
    (error : EvalError) : Prop where
  /-- Whatever the scripts in its arguments would do, the command fails, and all that has changed is
  that there is a further scope. -/
  ended : ∀ evaluate, evalCommand evaluate place command machine =
    .ended (.error (.failed error)) { machine with scopes := machine.scopes.addBlock place.scope }
  /-- No scope that was there has changed. -/
  kept : ∀ id < machine.scopes.next,
    (machine.scopes.addBlock place.scope).find? id = machine.scopes.find? id
  /-- The further scope is an empty block. -/
  empty : (machine.scopes.addBlock place.scope).find? machine.scopes.next =
    some ⟨some place.scope, [], machine.scopes.insideFunction place.scope⟩
  /-- Other processes, another loader, another state of the host and other mailboxes make no
  difference. -/
  indifferent : ∀ other, Poses machine other → ∀ evaluate, evalCommand evaluate place command other =
    .ended (.error (.failed error)) { other with scopes := other.scopes.addBlock place.scope }

/-- What is rejected has no effect. -/
theorem Rejected.refused (rejected : Rejected machine place command error) :
    Refused machine place command error where
  ended evaluate := evalCommand_of_rejected evaluate rejected
  kept _ made := Scopes.find?_add_of_lt _ _ made
  empty := Scopes.find?_add_next ..
  indifferent _ poses evaluate := evalCommand_of_rejected evaluate (rejected.poses poses)

end CommandScript.Evaluation
