import CommandScript.Evaluation.Evaluator
import CommandScript.Proofs.Evaluation.Footing
import CommandScript.Proofs.Machine.Ground

/-!
# Evaluated data stays as it is

Evaluation makes a list of what its items have been evaluated to. So on a machine that holds only
ground data all that is evaluated is ground, and no value is a script: a script that is evaluated is
run. In turn a value that is ground data is encoded as an argument which evaluates to the value
again, wherever it is evaluated, and which leaves the machine alone.
-/

namespace CommandScript.Evaluation

open CommandScript.Machine CommandScript.Source

variable {Host α β : Type} {ok : α → Prop} {fine : β → Prop}

/-! ## Runs on ground data -/

/-- Whenever the run comes to rest its machine holds only ground data, and the value it ends with
has a property. While it waits, others may do to the machine whatever keeps its data ground. -/
def Run.KeepsGround (ok : α → Prop) : Run Host α → Prop
  | .ended outcome machine => machine.HoldsGround ∧ ∀ value, outcome = .ok value → ok value
  | .waiting _ _ machine resume =>
    machine.HoldsGround ∧ ∀ answer found, found.HoldsGround →
      (resume answer found).KeepsGround ok

/-- All runs of the computation keep data ground. -/
def Eval.KeepsGround (ok : α → Prop) (computation : Eval Host α) : Prop :=
  ∀ machine, machine.HoldsGround → (computation machine).KeepsGround ok

/-- Machines that hold only ground data, one of which may become any other. -/
def groundData : Footing Host where
  holds := Machine.HoldsGround
  later _ _ := True
  refl _ := trivial
  trans _ _ := trivial
  request holds only := ⟨holds.onlyMailboxes only, trivial⟩

/-- A run that stands on ground data keeps the data ground. -/
theorem Run.Stands.keepsGround {start : Machine Host} {run other : Run Host α}
    (stands : run.Stands groundData (fun _ => ok) start other) : run.KeepsGround ok := by
  induction stands with
  | ended kept _ good => exact ⟨kept, good⟩
  | waiting kept _ _ ih => exact ⟨kept, fun answer found holds => ih answer found holds trivial⟩

/-- The computation stands with itself on machines that hold only ground data. -/
def Eval.Ground (ok : α → Prop) (computation : Eval Host α) : Prop :=
  ∀ start, computation.Stands groundData (fun _ => ok) start computation

namespace Eval.Ground

variable {computation : Eval Host α}

theorem keepsGround (ground : computation.Ground ok) : computation.KeepsGround ok :=
  fun machine holds => (ground machine machine holds trivial).keepsGround

theorem pure {value : α} (good : ok value) : (Eval.pure value : Eval Host α).Ground ok :=
  fun _ => .pure fun _ _ => good

theorem bind {next : α → Eval Host β} (head : computation.Ground ok)
    (tail : ∀ value, ok value → (next value).Ground fine) : (computation >>= next).Ground fine :=
  fun start => (head start).bind fun value machine _ good => tail value good machine

theorem read {look : Machine Host → α} (good : ∀ machine, machine.HoldsGround → ok (look machine)) :
    (Eval.read look).Ground ok :=
  fun _ => .read fun machine holds _ => good machine holds

/-- Nothing has to be known of what is read. -/
theorem look (look : Machine Host → α) : (Eval.read look).Ground fun _ => True :=
  read fun _ _ => trivial

theorem ofOption {found : Option α} (error : EvalError) (good : ∀ value ∈ found, ok value) :
    (Eval.ofOption found error : Eval Host α).Ground ok :=
  fun _ => .ofOption error fun value present _ _ => good value present

theorem require (condition : Bool) (error : EvalError) :
    (Eval.require condition error : Eval Host Unit).Ground fun _ => True :=
  fun _ => .require condition error

/-- A computation that ends at once. -/
theorem ends {outcome : Machine Host → Except Halt α} {change : Machine Host → Machine Host}
    (kept : ∀ machine, machine.HoldsGround → (change machine).HoldsGround)
    (good : ∀ machine value, machine.HoldsGround → outcome machine = .ok value → ok value) :
    Eval.Ground ok fun machine => .ended (outcome machine) (change machine) :=
  fun _ machine holds _ => .ended (kept machine holds) trivial fun value => good machine value holds

end Eval.Ground

/-! ## Steps -/

/-- A new block binds nothing. -/
theorem ground_newBlock (scope : ScopeId) :
    (newBlock scope : Eval Host ScopeId).Ground fun _ => True := by
  apply Eval.Ground.ends
  · intro machine holds
    exact holds.rebind (holds.bound.add (some scope) _) rfl
  · exact fun _ _ _ _ => trivial

/-- A ground value may be assigned. -/
theorem ground_assign (scope : ScopeId) (name : Symbol) {value : Value} (ground : value.IsGround) :
    (assign scope name value : Eval Host Unit).Ground fun _ => True := by
  apply Eval.Ground.ends
  · intro machine holds
    exact holds.rebind (holds.bound.assign scope name ground) rfl
  · exact fun _ _ _ _ => trivial

/-- A ground value may be bound to a free name. -/
theorem ground_bindFresh (scope : ScopeId) (name : Symbol) {value : Value} (error : EvalError)
    (ground : value.IsGround) :
    (bindFresh scope name value error : Eval Host Unit).Ground fun _ => True := by
  intro start machine holds _
  rw [bindFresh, Scopes.bind?]
  cases machine.scopes.isFree scope name with
  | true => exact .value (holds.rebind (holds.bound.assign scope name ground) rfl) trivial trivial
  | false => exact .halted holds trivial

/-- What is found in a scope is ground. -/
theorem ground_lookup (scope : ScopeId) (name : Symbol) :
    (Eval.read fun machine : Machine Host => machine.scopes.lookup scope name).Ground
      fun found => ∀ value ∈ found, value.IsGround :=
  .read fun _ holds _ present => holds.of_lookup present

/-- A function is entered with ground arguments. -/
theorem ground_enterFunction (function : Function) {values : List Value}
    (ground : ∀ value ∈ values, value.IsGround) :
    (enterFunction function values : Eval Host ScopeId).Ground fun _ => True := by
  apply Eval.Ground.ends
  · intro machine holds
    have named : ∀ binding ∈ function.params.zip values, binding.2.IsGround :=
      fun binding member => ground binding.2 (List.of_mem_zip member).2
    have made := holds.bound.add (some function.closure) true
    exact holds.rebind (made.foldl_assign machine.scopes.next named) rfl
  · exact fun _ _ _ _ => trivial

/-- A process takes ground arguments and yields a ground value. -/
theorem ground_callProcess (id : ProcessId) (name : String) {values : List Value}
    (ground : ∀ value ∈ values, value.IsGround) :
    (callProcess id name values : Eval Host Value).Ground Value.IsGround := by
  intro start machine holds _
  rw [callProcess]
  cases found : machine.processes[id]? with
  | none => exact .halted holds trivial
  | some process =>
      dsimp only
      have after := fun host : Host =>
        @Machine.HoldsGround.keep _ _ { machine with host := host } holds rfl rfl
      cases yielded : (process.run ⟨values, machine.counts⟩ machine.host).1 with
      | ok value => exact .value (after _) trivial (holds.of_process found ground yielded)
      | error error => exact .halted (after _) trivial

/-- A function that is defined closes over a scope with ground values. -/
theorem ground_runFunction (frame : Frame) (name : Symbol) (params : List Argument)
    (body : Script) :
    (runFunction frame name params body : Eval Host Value).Ground Value.IsGround := by
  refine (Eval.Ground.look _).bind fun inside _ => ?_
  refine (Eval.Ground.require _ _).bind fun _ _ => ?_
  refine Eval.Ground.bind (.ofOption _ fun _ _ => trivial) fun params (_ : True) => ?_
  refine (Eval.Ground.look _).bind fun function _ => ?_
  refine (Eval.Ground.look _).bind fun known _ => ?_
  refine (Eval.Ground.require _ _).bind fun _ _ => ?_
  have defines : (Eval.modify fun machine : Machine Host =>
      machine.define frame.caller.module function).Ground fun _ => True :=
    .ends (fun _ holds => holds.keep rfl rfl) fun _ _ _ _ => trivial
  exact defines.bind fun _ _ => .pure trivial

/-- What a print command waits for is ground. -/
theorem ground_pushAndWait (mailbox : MailboxId) (value : Value) :
    (pushAndWait mailbox value : Eval Host Value).Ground Value.IsGround := by
  have tells (outcome : Mailbox.Outcome Value) {start machine : Machine Host}
      (holds : machine.HoldsGround) :
      (printed outcome machine).Stands groundData (fun _ => Value.IsGround) start
        (printed outcome machine) := by
    cases outcome with
    | ok _ => exact .value holds trivial trivial
    | error failure => exact .halted holds trivial
  intro start machine holds _
  have pushed := holds.onlyMailboxes (machine.onlyMailboxes_push mailbox value (some printToken))
  rw [pushAndWait]
  generalize machine.push mailbox value (some printToken) = result at pushed ⊢
  obtain ⟨after, progress⟩ := result
  cases progress with
  | ended outcome => exact tells outcome pushed
  | waiting pending => exact .waiting pushed trivial fun answer found still _ => tells answer still

/-! ## Evaluators -/

/-- The evaluator keeps data ground wherever it is given a script. -/
def ScriptsGround (evaluate : Evaluator Host) : Prop :=
  ∀ script place, (evaluate script place).Ground Value.IsGround

/-- The judgement that data is kept ground. -/
def grounding (Host : Type) : Judgement Host Host where
  toConduct := groundData.conduct
  fragment := .whole
  place _ _ := True
  home _ _ := True
  below _ _ _ := True
  module _ _ := True
  value _ := Value.IsGround
  encoded := Argument.IsGround
  list := IsGroundList
  value_onward ground _ := ground
  value_list ground := ground
  encode ground encoded := ground.encode encoded
  list_ofList ground := isGroundList_ofList ground
  list_push ground last := ground.push last
  newBlock _ := ground_newBlock _ _
  assign name _ _ ground := ground_assign _ name ground _
  bindFresh name _ error _ ground := ground_bindFresh _ name error ground _
  isFree _ _ := .look _
  lookup name _ := ground_lookup _ name _
  hasLoader := .look _
  function? _ _ := .read fun _ _ _ _ _ => trivial
  callProcess _ ground := ground_callProcess _ _ ground _
  runFunction name params body _ _ := ground_runFunction _ name params body _

namespace ScriptsGround

variable {evaluate : Evaluator Host} (scripts : ScriptsGround evaluate)
include scripts

/-- Scripts that keep data ground are evaluators of the judgement. -/
theorem evaluators : (grounding Host).Evaluators evaluate evaluate :=
  fun start script place _ _ => scripts script place start

/-- A call with ground arguments yields a ground value. -/
theorem callFunction (function : Function) {values : List Value} (fallback : ModuleId)
    (ground : ∀ value ∈ values, value.IsGround) :
    (callFunction evaluate function values fallback).Ground Value.IsGround := by
  refine (Eval.Ground.require _ _).bind fun _ _ => ?_
  refine (ground_enterFunction function ground).bind fun scope _ => ?_
  exact (Eval.Ground.look _).bind fun owner _ => scripts function.body ⟨scope, owner⟩

/-- A module is loaded onto ground data. -/
theorem loadModule (path : String) :
    (loadModule evaluate path).Ground fun _ => True := by
  intro start machine holds _
  rw [Evaluation.loadModule]
  cases machine.loaded? path with
  | some id => exact .value holds trivial trivial
  | none =>
      cases present : machine.loader with
      | none => exact .halted holds trivial
      | some load =>
          dsimp only
          rw [← present]
          generalize (load path machine.host).2 = host
          have consulted : Machine.HoldsGround { machine with host := host } := holds.keep rfl rfl
          cases (load path machine.host).1 with
          | error error => exact .halted consulted trivial
          | ok script =>
              have added : (Machine.addModule { machine with host := host } path).HoldsGround :=
                consulted.rebind (consulted.bound.add (some rootScope) _) rfl
              have body := scripts script ⟨machine.scopes.next, machine.modules.size⟩ start _ added
                trivial
              have ended := body.onHalt fun failed still =>
                ⟨@HoldsGround.keep _ _ (failed.unregister path) still rfl rfl, trivial⟩
              exact (ended.andThen fun _ _ _ _ => .pure fun _ _ => trivial).after trivial

/-- Calls keep data ground. -/
theorem callers : (grounding Host).Callers (Evaluation.callFunction evaluate)
    (Evaluation.callFunction evaluate) :=
  fun start function _ fallback _ ground _ =>
    scripts.callFunction function fallback ground start

/-- Loading keeps data ground. -/
theorem loaders : (grounding Host).Loaders (Evaluation.loadModule evaluate)
    (Evaluation.loadModule evaluate) :=
  fun start path => scripts.loadModule path start

/-- Arguments yield ground values. -/
theorem evalArgument (place : Place) (arg : Argument) :
    (evalArgument evaluate place arg).Ground Value.IsGround :=
  fun _ => scripts.evaluators.evalArgument trivial arg trivial

/-- The items of a list are encoded from ground values. -/
theorem evalItems (place : Place) (items : List Argument) :
    (evalItems evaluate place items).Ground fun encoded => ∀ item ∈ encoded, item.IsGround :=
  fun _ => scripts.evaluators.evalItems trivial items fun _ _ => trivial

/-- The results of a loop are encoded from ground values, one after another. -/
theorem iterate (place : Place) (counter : Symbol) (first step : Float) (body : Script)
    (left index : Nat) {results : Sequence Argument} (ground : IsGroundList results) :
    (iterate evaluate place counter first step body left index results).Ground IsGroundList :=
  fun _ => scripts.evaluators.iterate trivial counter first step trivial left index ground

/-- Commands yield ground values. -/
theorem evalCommand (place : Place) (command : Command) :
    (evalCommand evaluate place command).Ground Value.IsGround :=
  fun _ => scripts.evaluators.evalCommandBy scripts.callers scripts.loaders
    (fun start mailbox _ => ground_pushAndWait mailbox _ start) trivial trivial

omit scripts in
/-- What the judgement says of scripts is that they keep data ground. -/
theorem of_evaluators (scripts : (grounding Host).Evaluators evaluate evaluate) :
    ScriptsGround evaluate :=
  fun script place start => scripts start script place trivial trivial

end ScriptsGround

/-- Scripts nested to any depth keep data ground. -/
theorem scriptsGround_evalScript (depth : Nat) :
    ScriptsGround (evalScript depth : Evaluator Host) := by
  apply ScriptsGround.of_evaluators
  refine Judgement.evaluators_evalScript (fun _ _ _ => trivial) (fun _ => Eval.Stands.exhausted)
    (fun scripts => ?_) (fun scripts => ?_)
    (fun start mailbox _ => ground_pushAndWait mailbox _ start) depth
  · exact (ScriptsGround.of_evaluators scripts).callers
  · exact (ScriptsGround.of_evaluators scripts).loaders

/-! ## Data evaluates to itself -/

section Again

variable (evaluate : Evaluator Host) (place : Place) (machine : Machine Host)

/-- The argument evaluates, at once and without a trace, to a value that it is encoded from. -/
def EvaluatesBack (arg : Argument) : Prop :=
  ∃ value : Value, value.encode = .ok arg ∧
    evalArgument evaluate place arg machine = .ended (.ok value) machine

variable {evaluate place machine}

/-- Items that evaluate back do so together, in their order. -/
theorem evalItems_of_evaluatesBack {items : List Argument}
    (each : ∀ item ∈ items, EvaluatesBack evaluate place machine item) :
    evalItems evaluate place items machine = .ended (.ok items) machine := by
  induction items with
  | nil =>
      rw [evalItems]
      rfl
  | cons item rest ih =>
      obtain ⟨⟨value, encoded, evaluated⟩, others⟩ := List.forall_mem_cons.mp each
      rw [evalItems]
      change ((evalArgument evaluate place item machine).andThen _) = _
      rw [evaluated]
      change ((Eval.ofExcept value.encode machine).andThen _) = _
      rw [encoded]
      change ((evalItems evaluate place rest machine).andThen _) = _
      rw [ih others]
      rfl

/-- A list whose items evaluate back does so itself. -/
theorem evalArgument_list {items : List Argument}
    (each : ∀ item ∈ items, EvaluatesBack evaluate place machine item) :
    evalArgument evaluate place (.list items) machine =
      .ended (.ok (.list (Sequence.ofList items))) machine := by
  rw [evalArgument]
  change ((evalItems evaluate place items machine).andThen _) = _
  rw [evalItems_of_evaluatesBack each]
  rfl

/-- Ground arguments evaluate to themselves. -/
theorem evaluatesBack_of_isGround {arg : Argument} (ground : arg.IsGround) :
    EvaluatesBack evaluate place machine arg := by
  induction ground with
  | symbol symbol => exact ⟨.symbol symbol, rfl, by rw [evalArgument]; rfl⟩
  | number value => exact ⟨.number value, rfl, by rw [evalArgument]; rfl⟩
  | text text => exact ⟨.text text, rfl, by rw [evalArgument]; rfl⟩
  | @list items _ each =>
      refine ⟨.list (Sequence.ofList items), ?_, evalArgument_list each⟩
      rw [Value.encode, Sequence.walk_ofList]

end Again

/-- What is encoded from a datum evaluates to it again, everywhere and without a trace. -/
theorem evalArgument_of_isDatum {value : Value} (datum : value.IsDatum) :
    ∃ arg, value.encode = .ok arg ∧
      ∀ (evaluate : Evaluator Host) (place : Place) (machine : Machine Host),
        evalArgument evaluate place arg machine = .ended (.ok value) machine := by
  cases value with
  | symbol symbol => exact ⟨.symbol symbol, rfl, fun _ _ _ => by rw [evalArgument]; rfl⟩
  | number value => exact ⟨.number value, rfl, fun _ _ _ => by rw [evalArgument]; rfl⟩
  | text text => exact ⟨.text text, rfl, fun _ _ _ => by rw [evalArgument]; rfl⟩
  | list items =>
      obtain ⟨made, ground⟩ := datum
      refine ⟨.list items.walk, rfl, fun evaluate place machine => ?_⟩
      rw [evalArgument_list fun item member => evaluatesBack_of_isGround (ground item member),
        made.ofList_walk]
  | nothing | script | function | process | mailbox | module => exact datum.elim

/-- What becomes of data in evaluation, with scripts nested up to a depth: on a machine that holds
only ground data nothing else is returned, bound or collected, and a datum is encoded as an argument
that evaluates to it again and changes nothing. -/
structure FixesData (Host : Type) (depth : Nat) : Prop where
  script : ∀ script place,
    (evalScript depth script place : Eval Host Value).KeepsGround Value.IsGround
  command : ∀ place command,
    (evalCommand (evalScript depth) place command : Eval Host Value).KeepsGround Value.IsGround
  argument : ∀ place arg,
    (evalArgument (evalScript depth) place arg : Eval Host Value).KeepsGround Value.IsGround
  items : ∀ place items,
    (evalItems (evalScript depth) place items : Eval Host (List Argument)).KeepsGround
      fun encoded => ∀ item ∈ encoded, item.IsGround
  loop : ∀ place counter first step body left index results, IsGroundList results →
    (iterate (evalScript depth) place counter first step body left index results :
      Eval Host (Sequence Argument)).KeepsGround IsGroundList
  call : ∀ function values fallback, (∀ value ∈ values, value.IsGround) →
    (callFunction (evalScript depth) function values fallback :
      Eval Host Value).KeepsGround Value.IsGround
  again : ∀ value : Value, value.IsDatum → ∃ arg, value.encode = .ok arg ∧
    ∀ (place : Place) (machine : Machine Host),
      evalArgument (evalScript depth) place arg machine = .ended (.ok value) machine

/-- Scripts keep ground data ground, at every depth, and a datum evaluates to itself. -/
theorem evalScript_fixesData (Host : Type) (depth : Nat) : FixesData Host depth where
  script script place := (scriptsGround_evalScript depth script place).keepsGround
  command place command := ((scriptsGround_evalScript depth).evalCommand place command).keepsGround
  argument place arg := ((scriptsGround_evalScript depth).evalArgument place arg).keepsGround
  items place items := ((scriptsGround_evalScript depth).evalItems place items).keepsGround
  loop place counter first step body left index results ground :=
    ((scriptsGround_evalScript depth).iterate place counter first step body left index
      ground).keepsGround
  call function values fallback ground :=
    ((scriptsGround_evalScript depth).callFunction function fallback ground).keepsGround
  again value datum := by
    obtain ⟨arg, encoded, evaluated⟩ := evalArgument_of_isDatum datum
    exact ⟨arg, encoded, evaluated (evalScript depth)⟩

end CommandScript.Evaluation
