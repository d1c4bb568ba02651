import CommandScript.Proofs.Evaluation.Rooting

/-!
# Watched evaluation

Between two rests of a run nobody sees the machine. A watched evaluator looks at it before every
command, and at the scope of every function body as soon as it is made: if it does not find what it
looks for, another evaluator goes on. If that makes no difference, whatever the other evaluator
does, then what is looked for is always there.
-/

namespace CommandScript.Evaluation

open CommandScript.Machine CommandScript.Source

variable {Host : Type}

/-- What is looked for in the course of a run: a property of the machine before every command, and
one of the scope that has been made for a function body. -/
structure Watch (Host : Type) where
  command : Machine Host → Prop
  body : Machine Host → ScopeId → Prop

open Classical in
/-- Looks whether the machine has a property. -/
noncomputable def lookWhether (property : Machine Host → Prop) : Eval Host Bool :=
  Eval.read fun machine => decide (property machine)

/-- `callFunction` with a look at the scope of the body. -/
noncomputable def callWatched (watch : Watch Host) (stray : Evaluator Host) : Caller Host :=
  fun evaluate function values fallback => do
    requireArity function values.length
    let scope ← enterFunction function values
    let owner ← Eval.read fun machine => (machine.loaded? function.module).getD fallback
    let found ← lookWhether fun machine => watch.body machine scope
    if found then evaluate function.body ⟨scope, owner⟩ else stray function.body ⟨scope, owner⟩

/-- `evalCommands` with a look at the machine before every command. -/
noncomputable def evalCommandsWatched (watch : Watch Host) (stray : Evaluator Host)
    (evaluate : Evaluator Host) (place : Place) : List Command → Value → Eval Host Value
  | [], last => Eval.pure last
  | command :: rest, _ => do
    let found ← lookWhether watch.command
    let value ←
      if found then evalCommandBy (callWatched watch stray) evaluate place command
      else stray [command] place
    evalCommandsWatched watch stray evaluate place rest value

/-- `evalScript` with a watch, in the scripts inside as well. -/
noncomputable def evalScriptWatched (watch : Watch Host) (stray : Evaluator Host) :
    Nat → Evaluator Host
  | 0 => fun _ _ => Eval.exhausted
  | depth + 1 => fun script place =>
    evalCommandsWatched watch stray (evalScriptWatched watch stray depth) place script .nothing

variable {keeps : Keeps Host} {trusted : Prop} {start : Machine Host}

/-- A look finds a property that holds. -/
theorem lookWhether_of_holds {property : Machine Host → Prop} {machine : Machine Host}
    (present : property machine) :
    lookWhether property machine = .ended (.ok true) machine := by
  simp [lookWhether, Eval.read, present]

/-- A look that is sure to find the property makes no difference. -/
theorem Eval.Stands.of_look {α : Type} {footing : Footing Host} {ok : Machine Host → α → Prop}
    {property : Machine Host → Prop} {next : Bool → Eval Host α} {other : Eval Host α}
    (sure : ∀ machine, footing.holds machine → footing.later start machine → property machine)
    (stands : (next true).Stands footing ok start other) :
    (lookWhether property >>= next).Stands footing ok start other := by
  intro machine kept later
  have same : (lookWhether property >>= next) machine = next true machine := by
    change (lookWhether property machine).andThen next = _
    rw [lookWhether_of_holds (sure machine kept later)]
    rfl
  rw [same]
  exact stands machine kept later

/-- What the watch looks for is there on sound machines. -/
structure Watch.Sure (watch : Watch Host) (keeps : Keeps Host) (trusted : Prop) : Prop where
  command : ∀ {machine}, machine.Sound keeps trusted → watch.command machine
  body : ∀ {machine scope}, machine.Sound keeps trusted →
    (trusted → machine.scopes.IsBody scope) → watch.body machine scope

namespace ScriptsStand

variable {evaluate other stray : Evaluator Host} {watch : Watch Host}
  (scripts : ScriptsStand keeps trusted evaluate other) (sure : watch.Sure keeps trusted)
include scripts sure

/-! ## Calls -/

/-- A watched call is like one that is not, since the watch always finds what it looks for. -/
theorem callWatched {function : Function} {values : List Value} (fallback : ModuleId)
    (admitted : start.Admits trusted (.function function))
    (given : ∀ value ∈ values, start.Admits trusted value) :
    (callWatched watch stray evaluate function values fallback).Stands (ground keeps trusted)
      (Machine.Admits trusted) start (callFunction other function values fallback) := by
  refine (Eval.Stands.require _ _).bind fun _ checked later _ => ?_
  refine (stands_enterFunction (admitted.extend later) fun value member =>
    (given value member).extend later).bind fun scope entered _ made => ?_
  refine (Eval.Stands.look _).bind fun owner found more _ => ?_
  refine .of_look (fun machine sound last => ?_) ?_
  · exact sure.body sound fun trust => (made.2 trust).extend (more.trans last).scopes
  · exact scripts function.body ⟨scope, owner⟩ found ((coheres_of_inside made.1 owner).extend more)

/-- Watched calls stand on sound machines. -/
theorem callers : (rooting keeps trusted).Callers (Evaluation.callWatched watch stray evaluate)
    (callFunction other) :=
  fun _ _ _ fallback admitted given _ => scripts.callWatched sure fallback admitted given

/-! ## Commands and scripts -/

/-- Watched commands are like commands that are not. -/
theorem evalCommands {place : Place} (coheres : start.Coheres place.scope place.module)
    (commands : List Command) {last : Value} (admitted : start.Admits trusted last) :
    (evalCommandsWatched watch stray evaluate place commands last).Stands (ground keeps trusted)
      (Machine.Admits trusted) start (evalCommandsBy callFunction other place commands last) := by
  induction commands generalizing start last with
  | nil => exact .pure fun _ later => admitted.extend later
  | cons command rest ih =>
      refine .of_look (fun _ sound _ => sure.command sound) ?_
      refine Eval.Stands.bind (scripts.evaluators.evalCommandBy (scripts.callers sure)
        scripts.loaders (fun _ mailbox _ => stands_pushAndWait mailbox _) coheres trivial)
        fun value machine later given => ?_
      exact ih (coheres.extend later) given

end ScriptsStand

/-- On sound machines a watch that is sure makes no difference, however deeply scripts are
nested. -/
theorem Watch.Sure.scriptsStand {watch : Watch Host} (sure : watch.Sure keeps trusted)
    (stray : Evaluator Host) (depth : Nat) :
    ScriptsStand keeps trusted (evalScriptWatched watch stray depth) (evalScript depth) := by
  rw [← evalScriptBy_callFunction]
  induction depth with
  | zero => exact fun _ _ _ _ => .exhausted
  | succ depth ih =>
      intro script place start coheres
      exact ih.evalCommands sure coheres script (admits_plain rfl start)

end CommandScript.Evaluation
