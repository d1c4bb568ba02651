import CommandScript.Proofs.Evaluation.Discipline
import CommandScript.Proofs.Machine.Requests
import CommandScript.Proofs.Machine.ScopeFrame

/-!
# The scopes that evaluation may write to

A script evaluated at a place binds names in the scope of that place and in scopes that it makes
itself. Its arguments bind names in new scopes only. What others do while it waits does not matter
here, as nobody removes a scope.
-/

namespace CommandScript.Evaluation

open CommandScript.Machine CommandScript.Source

variable {Host α : Type} {bound : ScopeId} {writable : Set ScopeId}

/-- Of the scopes below a bound only the writable ones are written to. -/
def framing (Host : Type) (bound : ScopeId) (writable : Set ScopeId) : Discipline Host where
  ready machine := bound ≤ machine.scopes.next
  own before after := Scopes.Framed bound writable before.scopes after.scopes
  others before after := before.scopes.next ≤ after.scopes.next
  own_refl machine := .refl bound writable machine.scopes
  own_trans first second := first.trans second
  ready_of_own ready own := ready.trans own.made
  ready_of_others ready others := Nat.le_trans ready others

/-- The evaluator writes to no scope made before but the one of the place. -/
def FramesScripts (evaluate : Evaluator Host) : Prop :=
  ∀ script place bound, (evaluate script place).Follows (framing Host bound {place.scope})

namespace Eval.Follows

/-- More scopes may be written to. -/
theorem widen {computation : Eval Host α} {wider : Set ScopeId}
    (follows : computation.Follows (framing Host bound writable))
    (inside : ∀ id < bound, id ∈ writable → id ∈ wider) :
    computation.Follows (framing Host bound wider) :=
  follows.weaken (fun _ ready => ready)
    (fun _ _ framed => framed.weaken (Nat.le_refl _) inside) fun _ _ others => others

/-- What writes nowhere below the bound may stand where some scopes are writable. -/
theorem writing {computation : Eval Host α} (follows : computation.Follows (framing Host bound ∅))
    (writable : Set ScopeId) : computation.Follows (framing Host bound writable) :=
  follows.widen fun _ _ member => absurd member (Set.notMem_empty _)

end Eval.Follows

/-! ## Steps -/

/-- A new block lies past the bound. -/
theorem followsTo_newBlock (parent : ScopeId) :
    (newBlock parent : Eval Host ScopeId).FollowsTo (framing Host bound writable) (bound ≤ ·) :=
  fun _ ready => .value (Scopes.framed_add _ ready) ready

/-- The scope of a function body lies past the bound, and its parameters are bound there. -/
theorem followsTo_enterFunction (function : Function) (values : List Value) :
    (enterFunction function values : Eval Host ScopeId).FollowsTo (framing Host bound writable)
      (bound ≤ ·) := by
  intro machine ready
  have made : Scopes.Framed bound writable machine.scopes
      (machine.scopes.addFunction function.closure) := Scopes.framed_add _ ready
  exact .value (Scopes.framed_foldl_assign_past ready (function.params.zip values) made) ready

/-- Scopes made since may be assigned to. -/
theorem followsTo_assign_past {scope : ScopeId} (name : Symbol) (value : Value)
    (past : bound ≤ scope) :
    (assign scope name value : Eval Host Unit).FollowsTo (framing Host bound writable)
      fun _ => True :=
  fun machine _ => .value (Scopes.framed_assign_past machine.scopes name value past) trivial

/-- A free name may be bound in a writable scope. -/
theorem followsTo_bindFresh {scope : ScopeId} (name : Symbol) (value : Value) (error : EvalError)
    (allowed : scope ∈ writable ∨ bound ≤ scope) :
    (bindFresh scope name value error : Eval Host Unit).FollowsTo (framing Host bound writable)
      fun _ => True := by
  intro machine ready
  rw [bindFresh, Scopes.bind?]
  cases free : machine.scopes.isFree scope name with
  | false => exact .halted (.refl ..)
  | true =>
      refine .value ?_ trivial
      rcases allowed with member | past
      · exact Scopes.framed_assign_free value free member
      · exact Scopes.framed_assign_past machine.scopes name value past

/-- A look writes nothing. -/
theorem followsTo_read (look : Machine Host → α) :
    (Eval.read look).FollowsTo (framing Host bound writable) fun _ => True :=
  fun machine _ => .value (.refl bound writable machine.scopes) trivial

/-- A process writes to no scope. -/
theorem followsTo_callProcess (id : ProcessId) (name : String) (values : List Value) :
    (callProcess id name values : Eval Host Value).FollowsTo (framing Host bound writable)
      fun _ => True := by
  intro machine ready
  rw [callProcess]
  cases machine.processes[id]? with
  | none => exact .halted (.refl ..)
  | some process =>
      dsimp only
      cases (process.run ⟨values, machine.counts⟩ machine.host).1 with
      | ok value => exact .value (Scopes.Framed.refl ..) trivial
      | error error => exact .halted (Scopes.Framed.refl ..)

/-- The definition of a function writes to no scope. -/
theorem followsTo_runFunction (frame : Frame) (name : Symbol) (params : List Argument)
    (body : Script) :
    (runFunction frame name params body : Eval Host Value).FollowsTo (framing Host bound writable)
      fun _ => True := by
  intro machine ready
  rw [runFunction_apply]
  cases machine.scopes.insideFunction frame.caller.scope with
  | true => exact .halted (.refl ..)
  | false =>
      cases params.mapM param? with
      | none => exact .halted (.refl ..)
      | some names =>
          cases machine.function? frame.caller.module name with
          | some known => exact .halted (.refl ..)
          | none => exact .value (Scopes.Framed.refl ..) trivial

/-- What is printed is on its way before; no scope is written to. -/
theorem followsTo_printed (outcome : Mailbox.Outcome Value) (machine : Machine Host) :
    (printed outcome machine).FollowsTo (framing Host bound writable) (fun _ => True) machine := by
  cases outcome with
  | ok _ => exact .value (Scopes.Framed.refl ..) trivial
  | error failure => exact .halted (Scopes.Framed.refl ..)

/-- A push writes to no scope. -/
theorem followsTo_pushAndWait (mailbox : MailboxId) (value : Value) :
    (pushAndWait mailbox value : Eval Host Value).FollowsTo (framing Host bound writable)
      fun _ => True := by
  intro machine ready
  have kept := (machine.onlyMailboxes_push mailbox value (some printToken)).scopes_eq
  rw [pushAndWait]
  generalize machine.push mailbox value (some printToken) = pushed at kept ⊢
  obtain ⟨after, progress⟩ := pushed
  have framed : (framing Host bound writable).own machine after := by
    change Scopes.Framed bound writable machine.scopes after.scopes
    rw [← kept]
    exact .refl bound writable after.scopes
  cases progress with
  | ended outcome => exact (followsTo_printed outcome after).after framed
  | waiting pending => exact ⟨framed, fun answer later _ => followsTo_printed answer later⟩

/-- The judgement that only writable scopes are written to, at places in such a scope or past the
bound. -/
def framed (Host : Type) (bound : ScopeId) (writable : Set ScopeId) : Judgement Host Host where
  toConduct := (framing Host bound writable).conduct
  fragment := .whole
  place _ _ := True
  home _ spot := spot.scope ∈ writable ∨ bound ≤ spot.scope
  below _ _ scope := bound ≤ scope
  module _ _ := True
  value _ _ := True
  encoded _ := True
  list _ := True
  home_of_below _ past := .inr past
  home_onward allowed _ := allowed
  newBlock _ := followsTo_newBlock _
  assign name _ past _ := followsTo_assign_past name _ past
  bindFresh name _ error allowed _ := followsTo_bindFresh name _ error allowed
  isFree _ _ := followsTo_read _
  lookup _ _ machine _ := .value (.refl bound writable machine.scopes) fun _ _ => trivial
  hasLoader := followsTo_read _
  function? _ _ machine _ := .value (.refl bound writable machine.scopes) fun _ _ => trivial
  callProcess _ _ := followsTo_callProcess _ _ _
  runFunction name params body _ _ := followsTo_runFunction _ name params body

section Judged

variable {evaluate : Evaluator Host}
  (scripts : (framed Host bound writable).Evaluators evaluate evaluate)
include scripts

/-- The body runs in a scope made for the call, whatever the closure of the function is. -/
theorem callers_framed :
    (framed Host bound writable).Callers (callFunction evaluate) (callFunction evaluate) := by
  intro start function values fallback _ _ _
  have required : (framed Host bound writable).rel start (fun _ _ => True)
    (requireArity function values.length) (requireArity function values.length) :=
    Conduct.require _ _ _
  refine Eval.FollowsTo.bind required fun _ _ => ?_
  refine (followsTo_enterFunction function values).bind fun scope past => ?_
  refine (followsTo_read _).bind fun owner _ => ?_
  exact scripts start function.body ⟨scope, owner⟩ trivial (.inr past)

/-- The script of a module runs in a scope made for the module. That a failed module is no longer
registered does not touch the scopes. -/
theorem loaders_framed :
    (framed Host bound writable).Loaders (loadModule evaluate) (loadModule evaluate) := by
  intro start path machine ready
  have body : ∀ script (fresh : Machine Host), fresh.scopes = machine.scopes.addBlock rootScope →
      (evaluate script ⟨machine.scopes.next, machine.modules.size⟩ fresh).FollowsTo
        (framing Host bound writable) (fun _ => True) machine := by
    intro script fresh entered
    have made : (framing Host bound writable).own machine fresh := by
      change Scopes.Framed bound writable machine.scopes fresh.scopes
      rw [entered]
      exact Scopes.framed_add _ ready
    have follows := scripts start script ⟨machine.scopes.next, machine.modules.size⟩ trivial
      (.inr ready) fresh (ready.trans made.made)
    exact follows.after made
  rw [loadModule]
  cases machine.loaded? path with
  | some id => exact .value (.refl ..) trivial
  | none =>
      cases machine.loader with
      | none => exact .halted (.refl ..)
      | some load =>
          dsimp only
          generalize (load path machine.host).2 = host
          cases (load path machine.host).1 with
          | error error => exact .halted (Scopes.Framed.refl ..)
          | ok script =>
              refine ((body script _ rfl).onHalt fun failed => ?_).andThen ready ?_
              · exact Scopes.Framed.refl bound writable failed.scopes
              · exact fun _ _ final _ => .value (.refl bound writable final.scopes) trivial

end Judged

/-! ## Scripts -/

namespace FramesScripts

variable {evaluate : Evaluator Host} (frames : FramesScripts evaluate)
include frames

/-- Scripts that write inside the frame are evaluators of the judgement. -/
theorem evaluators : (framed Host bound writable).Evaluators evaluate evaluate := by
  intro _ script place _ allowed
  refine ((frames script place bound).widen ?_).toAny
  rintro id below rfl
  exact allowed.resolve_right (Nat.not_le_of_lt below)

/-- What is evaluated for an argument writes to new scopes only. -/
theorem evalArgument (place : Place) (arg : Argument) :
    (evalArgument evaluate place arg).Follows (framing Host bound ∅) := by
  have scripts : (framed Host bound ∅).Evaluators evaluate evaluate := frames.evaluators
  have follows : (framed Host bound ∅).rel () (fun _ _ => True)
      (Evaluation.evalArgument evaluate place arg) (Evaluation.evalArgument evaluate place arg) :=
    scripts.evalArgument trivial arg trivial
  exact follows.follows

/-- A call writes to no scope made before. -/
theorem callFunction (function : Function) (values : List Value) (fallback : ModuleId) :
    (callFunction evaluate function values fallback).Follows (framing Host bound ∅) :=
  (callers_framed frames.evaluators () function values fallback trivial (fun _ _ => trivial)
    trivial).follows

/-- To load a module writes to no scope made before. -/
theorem loadModule (path : String) :
    (loadModule evaluate path).FollowsTo (framing Host bound ∅) fun _ => True :=
  loaders_framed frames.evaluators () path

end FramesScripts

/-- Scripts are framed at every depth of nesting. -/
theorem framesScripts_evalScript (depth : Nat) :
    FramesScripts (evalScript depth : Evaluator Host) := by
  intro script place bound
  have scripts : (framed Host bound {place.scope}).Evaluators (evalScript depth)
      (evalScript depth) :=
    Judgement.evaluators_evalScript (fun _ _ _ => trivial)
      (fun _ machine _ => .halted (.refl _ _ machine.scopes)) callers_framed loaders_framed
      (fun _ mailbox _ => followsTo_pushAndWait mailbox _) depth
  exact (scripts () script place trivial (.inl rfl)).follows

end CommandScript.Evaluation
