import CommandScript.Evaluation.Evaluator
import CommandScript.Proofs.Evaluation.Footing
import CommandScript.Proofs.Machine.Tables

/-!
# Evaluators that cannot be told apart

Two evaluators may differ and still do the same as long as some property of the modules holds: their
runs end with the same outcome on the same machine, wait for the same requests, and go on alike. As
the property must hold again whenever a run waits or ends, an evaluator that is like itself keeps
it.
-/

namespace CommandScript.Evaluation

open CommandScript.Machine CommandScript.Source

variable {Host α β : Type} {holds : Machine Host → Prop}

/-! ## Runs and computations -/

/-- Two runs take the same course, as long as a property holds whenever they are taken up, and they
keep it. -/
inductive Run.Alike (holds : Machine Host → Prop) : Run Host α → Run Host α → Prop where
  | ended {outcome : Except Halt α} {machine : Machine Host} (kept : holds machine) :
    Alike holds (.ended outcome machine) (.ended outcome machine)
  | waiting {mailbox : MailboxId} {pending : Mailbox.Pending} {machine : Machine Host}
    {resume other : Mailbox.Outcome Value → Machine Host → Run Host α} (kept : holds machine)
    (taken : ∀ answer later, holds later →
      Alike holds (resume answer later) (other answer later)) :
    Alike holds (.waiting mailbox pending machine resume) (.waiting mailbox pending machine other)

/-- Two computations have the same runs on the machines that have a property. -/
def Eval.Alike (holds : Machine Host → Prop) (computation other : Eval Host α) : Prop :=
  ∀ machine, holds machine → (computation machine).Alike holds (other machine)

namespace Run.Alike

variable {run other : Run Host α}

/-- Runs are alike part by part. -/
theorem andThen {next rest : α → Eval Host β} (alike : run.Alike holds other)
    (tail : ∀ value, (next value).Alike holds (rest value)) :
    (run.andThen next).Alike holds (other.andThen rest) := by
  induction alike with
  | @ended outcome machine kept =>
      cases outcome with
      | ok value => exact tail value machine kept
      | error halt => exact .ended kept
  | waiting kept taken ih => exact .waiting kept ih

/-- A change after an error must keep the property. -/
theorem onHalt {change : Machine Host → Machine Host} (alike : run.Alike holds other)
    (changed : ∀ machine, holds machine → holds (change machine)) :
    (run.onHalt change).Alike holds (other.onHalt change) := by
  induction alike with
  | @ended outcome machine kept =>
      cases outcome with
      | ok value => exact .ended kept
      | error halt => exact .ended (changed machine kept)
  | waiting kept taken ih => exact .waiting kept ih

end Run.Alike

namespace Eval.Alike

theorem pure (value : α) : (Eval.pure value : Eval Host α).Alike holds (Eval.pure value) :=
  fun _ ready => .ended ready

theorem fail (error : EvalError) : (Eval.fail error : Eval Host α).Alike holds (Eval.fail error) :=
  fun _ ready => .ended ready

theorem exhausted : (Eval.exhausted : Eval Host α).Alike holds Eval.exhausted :=
  fun _ ready => .ended ready

/-- Computations are alike part by part. -/
theorem bind {first other : Eval Host α} {next rest : α → Eval Host β}
    (head : first.Alike holds other) (tail : ∀ value, (next value).Alike holds (rest value)) :
    (first >>= next).Alike holds (other >>= rest) :=
  fun machine ready => (head machine ready).andThen tail

theorem require (condition : Bool) (error : EvalError) :
    (Eval.require condition error : Eval Host Unit).Alike holds (Eval.require condition error) := by
  cases condition with
  | true => exact pure ()
  | false => exact fail error

end Eval.Alike

/-! ## Properties of modules -/

/-- A property that depends on modules only, and that evaluation keeps. -/
structure Upheld (holds : Machine Host → Prop) : Prop where
  same : ∀ {before after : Machine Host}, holds before → before.SameModules after → holds after
  define : ∀ {machine : Machine Host} {place : Place} {name : Symbol} {params : List Symbol}
    {body : Script}, holds machine → machine.scopes.insideFunction place.scope = false →
    machine.function? place.module name = none →
    holds (machine.define place.module (functionAt machine place name params body))
  addModule : ∀ {machine : Machine Host} {path : String}, holds machine →
    machine.loaded? path = none → holds (machine.addModule path)
  unregister : ∀ {machine : Machine Host} (path : String), holds machine →
    holds (machine.unregister path)

namespace Upheld

/-- What ends at once, with the modules as they were, is like itself. -/
theorem of_sameModules (upheld : Upheld holds) {computation : Eval Host α}
    (ends : ∀ machine, ∃ outcome after, computation machine = .ended outcome after ∧
      machine.SameModules after) : computation.Alike holds computation := by
  intro machine ready
  obtain ⟨outcome, after, same, modules⟩ := ends machine
  rw [same]
  exact .ended (upheld.same ready modules)

/-- A new block keeps what is upheld. -/
theorem newBlock (upheld : Upheld holds) (parent : ScopeId) :
    (newBlock parent : Eval Host ScopeId).Alike holds (newBlock parent) :=
  upheld.of_sameModules fun _ => ⟨_, _, rfl, rfl, rfl, rfl⟩

/-- To enter a function keeps what is upheld. -/
theorem enterFunction (upheld : Upheld holds) (function : Function) (values : List Value) :
    (enterFunction function values : Eval Host ScopeId).Alike holds
      (enterFunction function values) :=
  upheld.of_sameModules fun _ => ⟨_, _, rfl, rfl, rfl, rfl⟩

/-- An assignment keeps what is upheld. -/
theorem assign (upheld : Upheld holds) (scope : ScopeId) (name : Symbol) (value : Value) :
    (assign scope name value : Eval Host Unit).Alike holds (assign scope name value) :=
  upheld.of_sameModules fun _ => ⟨_, _, rfl, rfl, rfl, rfl⟩

/-- To bind a free name keeps what is upheld. -/
theorem bindFresh (upheld : Upheld holds) (scope : ScopeId) (name : Symbol) (value : Value)
    (error : EvalError) :
    (bindFresh scope name value error : Eval Host Unit).Alike holds
      (bindFresh scope name value error) := by
  apply upheld.of_sameModules
  intro machine
  rw [Evaluation.bindFresh]
  cases machine.scopes.bind? scope name value with
  | some scopes => exact ⟨_, _, rfl, rfl, rfl, rfl⟩
  | none => exact ⟨_, _, rfl, .refl machine⟩

/-- The call of a process keeps what is upheld. -/
theorem callProcess (upheld : Upheld holds) (id : ProcessId) (name : String)
    (values : List Value) :
    (callProcess id name values : Eval Host Value).Alike holds (callProcess id name values) := by
  apply upheld.of_sameModules
  intro machine
  rw [Evaluation.callProcess]
  cases machine.processes[id]? with
  | none => exact ⟨_, _, rfl, .refl machine⟩
  | some process =>
      dsimp only
      cases (process.run ⟨values, machine.counts⟩ machine.host).1 with
      | ok value => exact ⟨_, _, rfl, rfl, rfl, rfl⟩
      | error error => exact ⟨_, _, rfl, rfl, rfl, rfl⟩

/-- The definition of a function keeps what is upheld. -/
theorem runFunction (upheld : Upheld holds) (frame : Frame) (name : Symbol)
    (params : List Argument) (body : Script) :
    (runFunction frame name params body : Eval Host Value).Alike holds
      (runFunction frame name params body) := by
  intro machine ready
  rw [runFunction_apply]
  cases inside : machine.scopes.insideFunction frame.caller.scope with
  | true => exact .ended ready
  | false =>
      cases params.mapM param? with
      | none => exact .ended ready
      | some names =>
          cases unknown : machine.function? frame.caller.module name with
          | some known => exact .ended ready
          | none => exact .ended (upheld.define ready inside unknown)

/-- What a print command makes of an outcome is like itself. -/
theorem printed (outcome : Mailbox.Outcome Value) {machine : Machine Host}
    (ready : holds machine) :
    (printed outcome machine).Alike holds (printed outcome machine) := by
  cases outcome with
  | ok _ => exact .ended ready
  | error failure => exact .ended ready

/-- A push keeps what is upheld, also while it waits. -/
theorem pushAndWait (upheld : Upheld holds) (mailbox : MailboxId) (value : Value) :
    (pushAndWait mailbox value : Eval Host Value).Alike holds (pushAndWait mailbox value) := by
  intro machine ready
  have pushed := (machine.onlyMailboxes_push mailbox value (some printToken)).sameModules
  have kept := upheld.same ready pushed
  rw [Evaluation.pushAndWait]
  generalize machine.push mailbox value (some printToken) = result at kept ⊢
  obtain ⟨after, progress⟩ := result
  cases progress with
  | ended outcome => exact printed outcome kept
  | waiting pending => exact .waiting kept fun answer later ready => printed answer ready

end Upheld

/-! ## Evaluators -/

/-- Two evaluators that cannot be told apart while a property of the modules holds. -/
structure Likeness (holds : Machine Host → Prop) (evaluate other : Evaluator Host) : Prop where
  upheld : Upheld holds
  scripts : ∀ script place, (evaluate script place).Alike holds (other script place)

namespace Likeness

variable {evaluate other : Evaluator Host}

/-- A module is registered before its script runs, and no longer if that halts. -/
theorem loadModule (likeness : Likeness holds evaluate other) (path : String) :
    (loadModule evaluate path).Alike holds (loadModule other path) := by
  intro machine ready
  rw [Evaluation.loadModule, Evaluation.loadModule]
  cases absent : machine.loaded? path with
  | some id => exact .ended ready
  | none =>
      cases machine.loader with
      | none => exact .ended ready
      | some load =>
          dsimp only
          have consulted :
              holds { machine with loader := some load, host := (load path machine.host).2 } :=
            likeness.upheld.same ready ⟨rfl, rfl, rfl⟩
          cases (load path machine.host).1 with
          | error error => exact .ended consulted
          | ok script =>
              refine Run.Alike.andThen (Run.Alike.onHalt ?_ ?_) fun _ => .pure _
              · exact likeness.scripts script _ _ (likeness.upheld.addModule consulted absent)
              · exact fun failed => likeness.upheld.unregister path

end Likeness

/-! ## The footing of a property -/

/-- The footing where nothing but the property counts, whatever machine comes later. -/
def Footing.of {holds : Machine Host → Prop} (upheld : Upheld holds) : Footing Host where
  holds := holds
  later _ _ := True
  refl _ := trivial
  trans _ _ := trivial
  request ready only := ⟨upheld.same ready only.sameModules, trivial⟩

/-- Runs that are alike stand together. -/
theorem Run.Alike.stands {run other : Run Host α} (alike : run.Alike holds other)
    (upheld : Upheld holds) (start : Machine Host) :
    run.Stands (.of upheld) (fun _ _ => True) start other := by
  induction alike generalizing start with
  | ended kept => exact .ended kept trivial fun _ _ => trivial
  | waiting kept _ ih =>
      exact .waiting kept trivial fun answer found ready _ => ih answer found ready found

/-- Computations that are alike stand together. -/
theorem Eval.Alike.stands {computation other : Eval Host α}
    (alike : computation.Alike holds other) (upheld : Upheld holds) (start : Machine Host) :
    computation.Stands (.of upheld) (fun _ _ => True) start other :=
  fun machine ready _ => (alike machine ready).stands upheld machine

/-- Runs that stand together are alike. -/
theorem Run.Stands.alike {upheld : Upheld holds} {ok : Machine Host → α → Prop}
    {start : Machine Host} {run other : Run Host α}
    (stands : run.Stands (.of upheld) ok start other) : run.Alike holds other := by
  induction stands with
  | ended kept _ _ => exact .ended kept
  | waiting kept _ _ ih =>
      exact .waiting kept fun answer later ready => ih answer later ready trivial

/-- The judgement that two computations cannot be told apart while a property of the modules
holds. -/
def Upheld.judgement (upheld : Upheld holds) : Judgement Host Host where
  toConduct := (Footing.of upheld).conduct
  fragment := .whole
  place _ _ := True
  home _ _ := True
  below _ _ _ := True
  module _ _ := True
  value _ _ := True
  encoded _ := True
  list _ := True
  newBlock _ := (upheld.newBlock _).stands upheld _
  assign name _ _ _ := (upheld.assign _ name _).stands upheld _
  bindFresh name _ error _ _ := (upheld.bindFresh _ name _ error).stands upheld _
  isFree _ _ := .look _
  lookup _ _ := .read fun _ _ _ _ _ => trivial
  hasLoader := .look _
  function? _ _ := .read fun _ _ _ _ _ => trivial
  callProcess _ _ := (upheld.callProcess _ _ _).stands upheld _
  runFunction name params body _ _ := (upheld.runFunction _ name params body).stands upheld _

namespace Likeness

variable {evaluate other : Evaluator Host}

/-- What the judgement says of scripts is that they are alike. -/
theorem of_evaluators {upheld : Upheld holds}
    (scripts : upheld.judgement.Evaluators evaluate other) : Likeness holds evaluate other where
  upheld := upheld
  scripts script place machine ready := by
    have stands : (evaluate script place).Stands (.of upheld) (fun _ _ => True) machine
        (other script place) := scripts machine script place trivial trivial
    exact (stands machine ready trivial).alike

end Likeness

/-! ## Callers that cannot be told apart -/

/-- Two callers run bodies alike, as long as they are given evaluators that cannot be told apart. -/
def CallsAlike (holds : Machine Host → Prop) (call other : Caller Host) : Prop :=
  ∀ {evaluate evaluate' : Evaluator Host}, Likeness holds evaluate evaluate' →
    ∀ function values fallback,
      (call evaluate function values fallback).Alike holds
        (other evaluate' function values fallback)

/-- Callers that cannot be told apart make evaluators that cannot, at every depth of nesting. -/
theorem CallsAlike.evalScriptBy {call other : Caller Host} (calls : CallsAlike holds call other)
    (upheld : Upheld holds) (depth : Nat) :
    Likeness holds (evalScriptBy call depth) (evalScriptBy other depth) := by
  have scripts : upheld.judgement.Evaluators (Evaluation.evalScriptBy call depth)
      (Evaluation.evalScriptBy other depth) := by
    have prints : upheld.judgement.Printers pushAndWait pushAndWait := fun start mailbox text =>
      (upheld.pushAndWait mailbox (.text text)).stands upheld start
    refine Judgement.evaluators_evalScriptBy (fun _ _ _ => trivial)
      (fun start => Eval.Alike.exhausted.stands upheld start) (fun scripts => ?_)
      (fun scripts => ?_) prints depth
    · intro start function values fallback _ _ _
      exact (calls (.of_evaluators scripts) function values fallback).stands upheld start
    · intro start path
      exact ((Likeness.of_evaluators scripts).loadModule path).stands upheld start
  exact .of_evaluators scripts

end CommandScript.Evaluation
