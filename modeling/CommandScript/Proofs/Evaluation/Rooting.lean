import CommandScript.Proofs.Evaluation.Likeness
import CommandScript.Proofs.Machine.Soundness

/-!
# Evaluation on sound machines

The scope and the module of a place go through evaluation apart: calls and imports change both,
blocks only the scope. What keeps them together is that the scope lies inside a function or below
the top scope of the module.
-/

namespace CommandScript.Evaluation

open CommandScript.Machine CommandScript.Source

variable {Host : Type} {keeps : Keeps Host} {trusted : Prop} {start : Machine Host}

/-- The footing of evaluation: machines are sound, and what there is stays. -/
def ground (keeps : Keeps Host) (trusted : Prop) : Footing Host where
  holds := Machine.Sound keeps trusted
  later := Machine.Extends
  refl := .refl
  trans := .trans
  request sound only := sound.onlyMailboxes only

/-! ## Steps -/

/-- A new block coheres with the module that its parent belongs to. -/
theorem stands_newBlock {scope : ScopeId} {id : ModuleId} (coheres : start.Coheres scope id) :
    (newBlock scope).Stands (ground keeps trusted) (fun machine block => machine.Coheres block id)
      start (newBlock scope) := by
  intro machine sound later
  have here := coheres.extend later
  obtain ⟨made, further⟩ := sound.addBlock here.made
  exact .value made further here.addBlock

/-- The scope lies inside a function, so it coheres with any module. -/
theorem stands_enterFunction {function : Function} {values : List Value}
    (admitted : start.Admits trusted (.function function))
    (given : ∀ value ∈ values, start.Admits trusted value) :
    (enterFunction function values).Stands (ground keeps trusted)
      (fun machine scope => machine.scopes.insideFunction scope = true ∧
        (trusted → machine.scopes.IsBody scope)) start (enterFunction function values) := by
  intro machine sound later
  have closes : trusted → machine.IsClosure function.closure := fun trust =>
    admitted.extend later trust function.closure rfl
  have named : ∀ binding ∈ function.params.zip values, machine.Admits trusted binding.2 :=
    fun binding member => (given binding.2 (List.of_mem_zip member).2).extend later
  obtain ⟨⟨entered, further⟩, inside, body⟩ := sound.enterFunction closes named
  exact .value entered further ⟨inside, body⟩

/-- A value that is admitted may be assigned. -/
theorem stands_assign (scope : ScopeId) (name : Symbol) {value : Value}
    (admitted : start.Admits trusted value) :
    (assign scope name value).Stands (ground keeps trusted) (fun _ _ => True) start
      (assign scope name value) := by
  intro machine sound later
  obtain ⟨bound, further⟩ := sound.assign scope name (admitted.extend later)
  exact .value bound further trivial

/-- A value that is admitted may be bound to a free name. -/
theorem stands_bindFresh (scope : ScopeId) (name : Symbol) {value : Value} (error : EvalError)
    (admitted : start.Admits trusted value) :
    (bindFresh scope name value error).Stands (ground keeps trusted) (fun _ _ => True) start
      (bindFresh scope name value error) := by
  intro machine sound later
  rw [bindFresh, Scopes.bind?]
  cases machine.scopes.isFree scope name with
  | true =>
      obtain ⟨bound, further⟩ := sound.assign scope name (admitted.extend later)
      exact .value bound further trivial
  | false => exact .halted sound (.refl machine)

/-- What is found in a scope is admitted. -/
theorem stands_lookup (scope : ScopeId) (name : Symbol) :
    (Eval.read fun machine => machine.scopes.lookup scope name).Stands (ground keeps trusted)
      (fun machine found => ∀ value ∈ found, machine.Admits trusted value) start
      (Eval.read fun machine => machine.scopes.lookup scope name) :=
  .read fun _ sound _ _ found trust => (sound.supplied trust).bound.lookup found

/-- The functions of the modules are admitted. -/
theorem stands_function? (id : ModuleId) (name : Symbol) :
    (Eval.read fun machine => machine.function? id name).Stands (ground keeps trusted)
      (fun machine found => ∀ function ∈ found, machine.Admits trusted (.function function)) start
      (Eval.read fun machine => machine.function? id name) :=
  .read fun _ _ _ _ found => admits_function fun _ => isClosure_of_function? found

/-- What a process yields is admitted if its arguments are. -/
theorem stands_callProcess (id : ProcessId) (name : String) {values : List Value}
    (given : ∀ value ∈ values, start.Admits trusted value) :
    (callProcess id name values).Stands (ground keeps trusted) (Machine.Admits trusted) start
      (callProcess id name values) := by
  intro machine sound later
  have admitted : ∀ value ∈ values, machine.Admits trusted value :=
    fun value member => (given value member).extend later
  rw [callProcess]
  cases found : machine.processes[id]? with
  | none => exact .halted sound (.refl machine)
  | some process =>
      dsimp only
      obtain ⟨after, further⟩ := sound.afterProcess admitted found machine.counts
      cases yielded : (process.run ⟨values, machine.counts⟩ machine.host).1 with
      | ok value =>
          have yields := sound.process_yields admitted found machine.counts yielded
          exact .value after further (yields.extend further)
      | error error => exact .halted after further

/-- A function may be defined where the place coheres with its module. -/
theorem stands_runFunction {frame : Frame}
    (coheres : start.Coheres frame.caller.scope frame.caller.module) (name : Symbol)
    (params : List Argument) (body : Script) :
    (runFunction frame name params body).Stands (ground keeps trusted) (Machine.Admits trusted)
      start (runFunction frame name params body) := by
  intro machine sound later
  rw [runFunction_apply]
  cases inside : machine.scopes.insideFunction frame.caller.scope with
  | true => exact .halted sound (.refl machine)
  | false =>
      cases params.mapM param? with
      | none => exact .halted sound (.refl machine)
      | some names =>
          cases machine.function? frame.caller.module name with
          | some known => exact .halted sound (.refl machine)
          | none =>
              have here := coheres.extend later
              obtain ⟨module, found, -⟩ := here.home inside
              let function := functionAt machine frame.caller name names body
              have defined : (machine.define frame.caller.module function).Sound keeps trusted ∧
                  machine.Extends (machine.define frame.caller.module function) :=
                sound.define here inside rfl
              exact .value defined.1 defined.2
                (admits_function fun _ => isClosure_define found function)

/-- What a print command makes of an outcome is admitted. -/
theorem stands_printed (outcome : Mailbox.Outcome Value) {machine : Machine Host}
    (sound : machine.Sound keeps trusted) :
    (printed outcome machine).Stands (ground keeps trusted) (Machine.Admits trusted) machine
      (printed outcome machine) := by
  cases outcome with
  | ok _ => exact .value sound (.refl machine) (admits_of_nodes fun _ => Set.notMem_empty _)
  | error failure => exact .halted sound (.refl machine)

/-- What a push yields in the end is admitted. -/
theorem stands_pushAndWait (mailbox : MailboxId) (value : Value) :
    (pushAndWait mailbox value).Stands (ground keeps trusted) (Machine.Admits trusted) start
      (pushAndWait mailbox value) := by
  intro machine sound later
  have pushed := sound.onlyMailboxes (machine.onlyMailboxes_push mailbox value (some printToken))
  rw [pushAndWait]
  generalize machine.push mailbox value (some printToken) = result at pushed ⊢
  obtain ⟨after, progress⟩ := result
  obtain ⟨kept, further⟩ := pushed
  cases progress with
  | ended outcome => exact (stands_printed outcome kept).after further
  | waiting pending =>
      exact .waiting kept further fun answer found still _ => stands_printed answer still

/-! ## Evaluators -/

/-- Two evaluators stand together wherever scripts may run. -/
def ScriptsStand (keeps : Keeps Host) (trusted : Prop) (evaluate other : Evaluator Host) : Prop :=
  ∀ script place start, start.Coheres place.scope place.module →
    (evaluate script place).Stands (ground keeps trusted) (Machine.Admits trusted) start
      (other script place)

/-- A value that leads nowhere is admitted everywhere. -/
theorem admits_plain {value : Value} (plain : value.nodes = ∅) (machine : Machine Host) :
    machine.Admits trusted value :=
  admits_of_nodes fun _ => plain ▸ Set.notMem_empty _

/-- The judgement that machines stay sound. -/
def rooting (keeps : Keeps Host) (trusted : Prop) : Judgement Host Host where
  toConduct := (ground keeps trusted).conduct
  fragment := .whole
  place machine spot := machine.Coheres spot.scope spot.module
  home machine spot := machine.Coheres spot.scope spot.module
  below machine spot scope := machine.Coheres scope spot.module
  module _ _ := True
  value := Machine.Admits trusted
  encoded _ := True
  list _ := True
  home_of_below _ below := below
  place_of_home coheres := coheres
  place_onward coheres later := coheres.extend later
  home_onward coheres later := coheres.extend later
  value_onward admitted later := admitted.extend later
  value_symbol machine _ := admits_plain rfl machine
  value_number machine _ := admits_plain rfl machine
  value_text machine _ := admits_plain rfl machine
  value_nothing machine := admits_plain rfl machine
  value_list {machine _} _ := admits_plain rfl machine
  newBlock coheres := stands_newBlock coheres
  assign name _ _ admitted := stands_assign _ name admitted
  bindFresh name _ error _ admitted := stands_bindFresh _ name error admitted
  isFree _ _ := .look _
  lookup name _ := stands_lookup _ name
  hasLoader := .look _
  function? name _ := stands_function? _ name
  callProcess _ given := stands_callProcess _ _ given
  runFunction name params body _ coheres := stands_runFunction coheres name params body

namespace ScriptsStand

variable {evaluate other : Evaluator Host} (scripts : ScriptsStand keeps trusted evaluate other)
include scripts

/-- Scripts that stand on sound machines are evaluators of the judgement. -/
theorem evaluators : (rooting keeps trusted).Evaluators evaluate other :=
  fun start script place _ coheres => scripts script place start coheres

/-- The script of a module runs in the top scope of that module. -/
theorem loadModule (path : String) :
    (loadModule evaluate path).Stands (ground keeps trusted) (fun _ _ => True) start
      (loadModule other path) := by
  intro machine sound later
  rw [Evaluation.loadModule, Evaluation.loadModule]
  cases machine.loaded? path with
  | some id => exact .value sound (.refl machine) trivial
  | none =>
      cases present : machine.loader with
      | none => exact .halted sound (.refl machine)
      | some load =>
          dsimp only
          rw [← present]
          obtain ⟨consulted, further⟩ := sound.afterLoad present path
          generalize (load path machine.host).2 = host at consulted further
          cases (load path machine.host).1 with
          | error error => exact .halted consulted further
          | ok script =>
              obtain ⟨added, more⟩ := consulted.addModule path
              have here := consulted.rooted.coheres_addModule path
              have body := scripts script ⟨machine.scopes.next, machine.modules.size⟩ _ here _ added
                (.refl _)
              refine Run.Stands.after ?_ (further.trans more)
              refine (body.onHalt fun failed still => still.unregister path).andThen ?_
              exact fun _ _ _ _ => .pure fun _ _ => trivial

/-- To load a module stands on sound machines. -/
theorem loaders : (rooting keeps trusted).Loaders (Evaluation.loadModule evaluate)
    (Evaluation.loadModule other) :=
  fun _ path => (scripts.loadModule path).weaken fun _ _ _ => admits_of_nodes nofun

end ScriptsStand

end CommandScript.Evaluation
