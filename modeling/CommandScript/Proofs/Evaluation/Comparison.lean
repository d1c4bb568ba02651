import CommandScript.Proofs.Evaluation.Judgement
import CommandScript.Proofs.Evaluation.Likeness

/-!
# Relations that evaluation keeps

Two evaluations of one script may be compared by a relation between computations: on two machines,
on machines of two hosts, or with two sets of services. A relation that holds of what evaluation is
made of, and goes through where it puts computations together, holds of evaluation as a whole.

A comparison also says which scopes, modules and processes may be dealt with. Values that lead
nowhere else may be passed on.
-/

namespace CommandScript.Evaluation

open CommandScript.Machine CommandScript.Source

/-- A relation between computations whose values have a property in common, and the scopes, modules
and processes that it holds for. -/
structure Comparison (Host Other : Type) where
  scope : ScopeId → Prop
  module : ModuleId → Prop
  process : ProcessId → Prop
  rel : ∀ {α : Type}, (α → Prop) → Eval Host α → Eval Other α → Prop

namespace Comparison

variable {Host Other : Type} {α β : Type}

/-- The value leads to nothing but what the comparison holds for. -/
def value (comparison : Comparison Host Other) : Value → Prop
  | .function function => comparison.scope function.closure
  | .process id _ => comparison.process id
  | .module id _ => comparison.module id
  | _ => True

/-- A relation that makes no difference between scopes, modules and processes. -/
def everywhere (rel : ∀ {α : Type}, (α → Prop) → Eval Host α → Eval Other α → Prop) :
    Comparison Host Other where
  scope _ := True
  module _ := True
  process _ := True
  rel := rel

/-- Where everything may be compared, so may every value. -/
theorem everywhere_value {rel : ∀ {α : Type}, (α → Prop) → Eval Host α → Eval Other α → Prop}
    (value : Value) : (everywhere rel).value value := by
  cases value <;> trivial

/-- A script may be compared at this place. -/
structure Place (comparison : Comparison Host Other) (place : Evaluation.Place) : Prop where
  scope : comparison.scope place.scope
  module : comparison.module place.module

/-- What the comparison has to keep: how computations are put together, and the single steps of
evaluation. -/
structure Lawful (comparison : Comparison Host Other) : Prop where
  pure : ∀ {α : Type} {ok : α → Prop} {value : α}, ok value →
    comparison.rel ok (Eval.pure value) (Eval.pure value)
  fail : ∀ {α : Type} {ok : α → Prop} (error : EvalError),
    comparison.rel ok (Eval.fail error) (Eval.fail error)
  exhausted : ∀ {α : Type} {ok : α → Prop}, comparison.rel ok Eval.exhausted Eval.exhausted
  bind : ∀ {α β : Type} {ok : α → Prop} {fine : β → Prop} {first : Eval Host α}
    {other : Eval Other α} {next : α → Eval Host β} {rest : α → Eval Other β},
    comparison.rel ok first other →
    (∀ value, ok value → comparison.rel fine (next value) (rest value)) →
    comparison.rel fine (first >>= next) (other >>= rest)
  mapError : ∀ {α : Type} {ok : α → Prop} {computation : Eval Host α} {other : Eval Other α},
    comparison.rel ok computation other → ∀ tell : EvalError → EvalError,
    comparison.rel ok (computation.mapError tell) (other.mapError tell)
  newBlock : ∀ {parent : ScopeId}, comparison.scope parent →
    comparison.rel comparison.scope (newBlock parent) (newBlock parent)
  enterFunction : ∀ {function : Function} {values : List Value},
    comparison.scope function.closure → (∀ value ∈ values, comparison.value value) →
    comparison.rel comparison.scope (enterFunction function values) (enterFunction function values)
  assign : ∀ {scope : ScopeId} (name : Symbol) {value : Value}, comparison.scope scope →
    comparison.value value →
    comparison.rel (fun _ => True) (assign scope name value) (assign scope name value)
  bindFresh : ∀ {scope : ScopeId} (name : Symbol) {value : Value} (error : EvalError),
    comparison.scope scope → comparison.value value →
    comparison.rel (fun _ => True) (bindFresh scope name value error)
      (bindFresh scope name value error)
  isFree : ∀ {scope : ScopeId} (name : Symbol), comparison.scope scope →
    comparison.rel (fun _ => True) (Eval.read fun machine => machine.scopes.isFree scope name)
      (Eval.read fun machine => machine.scopes.isFree scope name)
  lookup : ∀ {scope : ScopeId} (name : Symbol), comparison.scope scope →
    comparison.rel (fun found => ∀ value ∈ found, comparison.value value)
      (Eval.read fun machine => machine.scopes.lookup scope name)
      (Eval.read fun machine => machine.scopes.lookup scope name)
  hasLoader : comparison.rel (fun _ => True) (Eval.read fun machine => machine.loader.isSome)
    (Eval.read fun machine => machine.loader.isSome)
  function? : ∀ {module : ModuleId} (name : Symbol), comparison.module module →
    comparison.rel (fun found => ∀ function ∈ found, comparison.scope function.closure)
      (Eval.read fun machine => machine.function? module name)
      (Eval.read fun machine => machine.function? module name)
  owner : ∀ (path : String) {fallback : ModuleId}, comparison.module fallback →
    comparison.rel comparison.module
      (Eval.read fun machine => (machine.loaded? path).getD fallback)
      (Eval.read fun machine => (machine.loaded? path).getD fallback)
  callProcess : ∀ {id : ProcessId} (name : String) {values : List Value}, comparison.process id →
    (∀ value ∈ values, comparison.value value) →
    comparison.rel comparison.value (callProcess id name values) (callProcess id name values)
  insideFunction : ∀ {scope : ScopeId}, comparison.scope scope →
    comparison.rel (fun _ => True) (Eval.read fun machine => machine.scopes.insideFunction scope)
      (Eval.read fun machine => machine.scopes.insideFunction scope)
  isDefined : ∀ {module : ModuleId} (name : Symbol), comparison.module module →
    comparison.rel (fun _ => True)
      (Eval.read fun machine => (machine.function? module name).isSome)
      (Eval.read fun machine => (machine.function? module name).isSome)
  newFunction : ∀ {place : Evaluation.Place} (name : Symbol) (params : List Symbol)
    (body : Script), comparison.Place place →
    comparison.rel (fun function => comparison.scope function.closure)
      (Eval.read fun machine => functionAt machine place name params body)
      (Eval.read fun machine => functionAt machine place name params body)
  define : ∀ {module : ModuleId} {function : Function}, comparison.module module →
    comparison.scope function.closure →
    comparison.rel (fun _ => True) (Eval.modify fun machine => machine.define module function)
      (Eval.modify fun machine => machine.define module function)

/-- Two evaluators are compared wherever scripts may be. -/
def Evaluators (comparison : Comparison Host Other) (evaluate : Evaluator Host)
    (other : Evaluator Other) : Prop :=
  ∀ script place, comparison.Place place →
    comparison.rel comparison.value (evaluate script place) (other script place)

/-- Two sets of services are compared. -/
structure OfServices (comparison : Comparison Host Other) (services : Services Host)
    (other : Services Other) : Prop where
  push : ∀ mailbox text, comparison.rel comparison.value (services.push mailbox (.text text))
    (other.push mailbox (.text text))
  load : ∀ {evaluate : Evaluator Host} {evaluate' : Evaluator Other},
    comparison.Evaluators evaluate evaluate' → ∀ path,
    comparison.rel comparison.module (services.load evaluate path) (other.load evaluate' path)

namespace Lawful

variable {comparison : Comparison Host Other} (lawful : comparison.Lawful)
include lawful

theorem ofOption {ok : α → Prop} {found : Option α} (good : ∀ value ∈ found, ok value)
    (error : EvalError) :
    comparison.rel ok (Eval.ofOption found error) (Eval.ofOption found error) := by
  cases found with
  | some value => exact lawful.pure (good value rfl)
  | none => exact lawful.fail error

theorem ofOption_any (found : Option α) (error : EvalError) :
    comparison.rel (fun _ => True) (Eval.ofOption found error) (Eval.ofOption found error) :=
  lawful.ofOption (fun _ _ => trivial) error

theorem require (condition : Bool) (error : EvalError) :
    comparison.rel (fun _ => True) (Eval.require condition error)
      (Eval.require condition error) := by
  cases condition with
  | true => exact lawful.pure trivial
  | false => exact lawful.fail error

/-! ## Steps that are put together -/

variable {evaluate : Evaluator Host} {other : Evaluator Other}

/-- Calls are alike if the scripts of their bodies are. -/
theorem callFunction (scripts : comparison.Evaluators evaluate other) {function : Function}
    {values : List Value} {fallback : ModuleId} (closure : comparison.scope function.closure)
    (good : ∀ value ∈ values, comparison.value value) (module : comparison.module fallback) :
    comparison.rel comparison.value (callFunction evaluate function values fallback)
      (callFunction other function values fallback) := by
  refine lawful.bind (lawful.require _ _) fun _ _ => ?_
  refine lawful.bind (lawful.enterFunction closure good) fun scope inside => ?_
  refine lawful.bind (lawful.owner function.module module) fun owner owning => ?_
  exact scripts function.body ⟨scope, owner⟩ ⟨inside, owning⟩

/-- The definition of a function makes no other steps than the ones compared. -/
theorem runFunction {frame : Evaluation.Frame} (allowed : comparison.Place frame.caller)
    (name : Symbol) (params : List Argument) (body : Script) :
    comparison.rel comparison.value (runFunction frame name params body)
      (runFunction frame name params body) := by
  refine lawful.bind (lawful.insideFunction allowed.scope) fun inside _ => ?_
  refine lawful.bind (lawful.require _ _) fun _ _ => ?_
  refine lawful.bind (lawful.ofOption_any _ _) fun params _ => ?_
  refine lawful.bind (lawful.newFunction name params body allowed) fun function closure => ?_
  refine lawful.bind (lawful.isDefined name allowed.module) fun known _ => ?_
  refine lawful.bind (lawful.require _ _) fun _ _ => ?_
  exact lawful.bind (lawful.define allowed.module closure) fun _ _ => lawful.pure closure

/-! ## Scripts -/

/-- A comparison knows of no stages. -/
def judgement : Judgement Host Other where
  Stage := Unit
  later _ _ := True
  rel _ ok := comparison.rel (ok ())
  pure good := lawful.pure (good () trivial)
  fail := lawful.fail
  bind head tail := lawful.bind head fun value good => tail value () trivial good
  mapError := lawful.mapError
  fragment := .whole
  place _ := comparison.Place
  home _ := comparison.Place
  below _ _ := comparison.scope
  module _ := comparison.module
  value _ := comparison.value
  encoded _ := True
  list _ := True
  home_of_below allowed below := ⟨below, allowed.module⟩
  place_of_home := id
  module_of_place := Place.module
  module_of_value := id
  place_onward allowed _ := allowed
  home_onward allowed _ := allowed
  module_onward good _ := good
  value_onward good _ := good
  newBlock allowed := lawful.newBlock allowed.scope
  assign name _ below good := lawful.assign name below good
  bindFresh name _ error allowed good := lawful.bindFresh name error allowed.scope good
  isFree name allowed := lawful.isFree name allowed.scope
  lookup name allowed := lawful.lookup name allowed.scope
  hasLoader := lawful.hasLoader
  function? name module := lawful.function? name module
  callProcess process good := lawful.callProcess _ process good
  runFunction name params body _ allowed := lawful.runFunction allowed name params body

/-- What is judged to evaluate alike compares as scripts. -/
theorem of_judged (scripts : lawful.judgement.Evaluators evaluate other) :
    comparison.Evaluators evaluate other :=
  fun script place allowed => scripts () script place trivial allowed

/-- What is kept by single steps is kept by scripts, however deeply they are nested. -/
theorem evalScriptWith {services : Services Host} {rival : Services Other}
    (served : comparison.OfServices services rival) (depth : Nat) :
    comparison.Evaluators (evalScriptWith services depth) (evalScriptWith rival depth) := by
  apply lawful.of_judged
  refine Judgement.evaluators_evalScriptWith (fun _ _ _ => trivial) (fun _ => lawful.exhausted)
    (fun scripts => ?_) (fun scripts => ?_) (fun _ mailbox text => served.push mailbox text)
    depth
  · exact fun _ _ _ _ closes good module =>
      lawful.callFunction (lawful.of_judged scripts) closes good module
  · exact fun _ path => served.load (lawful.of_judged scripts) path

end Lawful

end Comparison

end CommandScript.Evaluation
