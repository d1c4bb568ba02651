import CommandScript.Proofs.Evaluation.Likeness

/-!
# The module that a command belongs to

The scripts inside a command belong to the module of the command, except that a function body
belongs to the module that `callFunction` finds, and the script of a module to that module. A head
that is neither built in nor bound names a function of the module it stands in.
-/

namespace CommandScript.Evaluation

open CommandScript.Machine CommandScript.Source

variable {Host α : Type}

/-! ## Computations that are the same -/

/-- Nothing in particular is upheld by everything. -/
theorem upheld_true : Upheld fun _ : Machine Host => True where
  same _ _ := trivial
  define _ _ _ := trivial
  addModule _ _ := trivial
  unregister _ _ := trivial

theorem Run.Alike.refl (run : Run Host α) : run.Alike (fun _ => True) run := by
  induction run with
  | ended outcome machine => exact .ended trivial
  | waiting mailbox pending machine resume ih =>
      exact .waiting trivial fun answer later _ => ih answer later

/-- Where nothing is asked of the machines, runs that cannot be told apart are the same. -/
theorem Run.Alike.eq {run other : Run Host α} (alike : run.Alike (fun _ => True) other) :
    run = other := by
  induction alike with
  | ended => rfl
  | waiting _ _ ih =>
      congr
      funext answer later
      exact ih answer later trivial

/-- A computation stands on machines of which nothing is said. -/
theorem Eval.Stands.same (computation : Eval Host α) (start : Machine Host) :
    computation.Stands (.of upheld_true) (fun _ _ => True) start computation :=
  Eval.Alike.stands (fun machine _ => .refl (computation machine)) upheld_true start

/-! ## The scripts inside a command -/

/-- The evaluator that takes all scripts to belong to one module. -/
def within (module : ModuleId) (evaluate : Evaluator Host) : Evaluator Host :=
  fun script place => evaluate script { place with module := module }

/-- The part of the language that loads no modules. -/
def residing : Fragment where
  argument _ := True
  command _ := False
  script _ := True
  defining := True
  loading := False
  script_of_argument _ := trivial
  items_of_argument _ _ _ := trivial
  args_of_command := False.elim
  form_of_command := False.elim

/-- The judgement that computations are the same at the places of one module. -/
def resident (Host : Type) (module : ModuleId) : Judgement Host Host where
  toConduct := (Footing.of upheld_true).conduct
  fragment := residing
  place _ spot := spot.module = module
  home _ spot := spot.module = module
  below _ _ _ := True
  module _ _ := True
  value _ _ := True
  encoded _ := True
  list _ := True
  home_of_below here _ := here
  place_of_home := id
  place_onward here _ := here
  home_onward here _ := here
  newBlock _ := .same _ _
  assign _ _ _ _ := .same _ _
  bindFresh _ _ _ _ _ := .same _ _
  isFree _ _ := .same _ _
  lookup _ _ := .read fun _ _ _ _ _ => trivial
  hasLoader := .same _ _
  function? _ _ := .read fun _ _ _ _ _ => trivial
  callProcess _ _ := .same _ _
  runFunction _ _ _ _ _ := .same _ _

/-- An evaluator that stays in a module does there what it does anyway. -/
theorem evaluators_within (module : ModuleId) (evaluate : Evaluator Host) :
    (resident Host module).Evaluators (within module evaluate) evaluate := by
  intro start script place _ here
  have here : place.module = module := here
  subst here
  exact .same _ _

/-- What is judged to be the same is the same. -/
theorem resident_eq {module : ModuleId} {computation other : Eval Host α}
    {ok : Machine Host → α → Prop}
    (judged : ∀ start : Machine Host, (resident Host module).rel start ok computation other) :
    computation = other := by
  funext machine
  exact (judged machine machine trivial trivial).alike.eq

/-- The arguments of a command are evaluated in the module of the command. -/
theorem evalAll_within (evaluate : Evaluator Host) (place : Place) (args : List Argument) :
    evalAll (within place.module evaluate) place args = evalAll evaluate place args := by
  have scripts := evaluators_within place.module evaluate
  exact resident_eq fun start => scripts.evalAll rfl fun _ _ => trivial

/-- Only the script of a module that is loaded belongs to another module. -/
theorem runForm_within (evaluate : Evaluator Host) (frame : Frame) (form : Form)
    (here : ∀ entries, form ≠ .load entries) :
    runForm (within frame.caller.module evaluate) frame form = runForm evaluate frame form := by
  have fits : form.Within (fun _ => True) (fun _ => True) True False := by
    cases form with
    | load entries => exact here entries rfl
    | _ => simp [Form.Within]
  rw [← runFormWith_standard, ← runFormWith_standard]
  have scripts := evaluators_within frame.caller.module evaluate
  have prints : (resident Host frame.caller.module).Printers pushAndWait pushAndWait :=
    fun _ _ _ => .same _ _
  exact resident_eq fun start => scripts.runFormWith prints False.elim ⟨rfl, rfl⟩ fits

/-! ## Heads -/

/-- A head that is neither built in nor bound calls the function that the module of its place
defines under that name, with that module to fall back on. -/
theorem evalCommand_unbound (evaluate : Evaluator Host) (place : Place) (command : Command)
    (machine : Machine Host) (foreign : Builtin.ofName? command.head.text = none)
    (unbound : (machine.scopes.addBlock place.scope).lookup machine.scopes.next command.head =
      none) :
    evalCommand evaluate place command machine =
      (Eval.ofOption (machine.function? place.module command.head)
          (.commandNotFound command.head) >>= fun function =>
        invoke evaluate function command.args ⟨machine.scopes.next, place.module⟩ place.module)
        { machine with scopes := machine.scopes.addBlock place.scope } := by
  have named : evalCommand evaluate place command = newBlock place.scope >>= fun context =>
      runNamed evaluate ⟨place, context⟩ command.head command.args := by
    rw [evalCommand, foreign]
  let entered : Machine Host := { machine with scopes := machine.scopes.addBlock place.scope }
  rw [named]
  change runNamed evaluate ⟨place, machine.scopes.next⟩ command.head command.args entered = _
  have free : entered.scopes.lookup machine.scopes.next command.head = none := unbound
  simp only [runNamed, Bind.bind, Eval.bind, Eval.read, Run.andThen, free]
  rfl

end CommandScript.Evaluation
