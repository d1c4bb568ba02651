import CommandScript.Host.Session
import CommandScript.Proofs.Evaluation.ScopeFrame

/-!
# The second look at a name

A name is looked at twice before it is bound: before the value is there, and when it is bound. The
evaluation between the two binds nothing in the scope of the caller. So the second look finds the
name free, unless another run has bound it while this one waited.
-/

namespace CommandScript.Evaluation

open CommandScript.Machine CommandScript.Source CommandScript.Host

variable {Host α : Type}

/-- In the pause no scope is removed, and a name that a scope does not bind is not bound there. -/
structure Pause.LeavesFree (pause : Pause Host) (scope : ScopeId) (name : Symbol) : Prop where
  made : pause.left.scopes.next ≤ pause.found.scopes.next
  free : pause.left.scopes.isFree scope name = true → pause.found.scopes.isFree scope name = true

/-- A name that is free at the start of a run that writes to no scope made before is free at its
end. -/
theorem Run.Follows.isFree_of_course {run : Run Host α} {pauses : List (Pause Host)}
    {outcome : Except Halt α} {start final : Machine Host} {scope : ScopeId} {name : Symbol}
    (follows : run.Follows (framing Host start.scopes.next ∅) start)
    (course : run.Course pauses outcome final) (exist : scope < start.scopes.next)
    (free : start.scopes.isFree scope name = true)
    (undisturbed : ∀ pause ∈ pauses, pause.LeavesFree scope name) :
    final.scopes.isFree scope name = true := by
  have stable : ∀ before after : Machine Host, before.scopes.isFree scope name = true →
      (framing Host start.scopes.next ∅).own before after →
      after.scopes.isFree scope name = true := by
    intro before after holds own
    exact (Scopes.Framed.isFree_eq own exist (Set.notMem_empty scope) name).trans holds
  apply follows.holds_at_end course stable _ _ free
  · exact fun pause member => (undisturbed pause member).made
  · exact fun pause member => (undisturbed pause member).free

/-- A name that is free is bound. -/
theorem bindFresh_of_isFree {machine : Machine Host} {scope : ScopeId} {name : Symbol}
    (free : machine.scopes.isFree scope name = true) (value : Value) (error : EvalError) :
    bindFresh scope name value error machine =
      .ended (.ok ()) { machine with scopes := machine.scopes.assign scope name value } := by
  rw [bindFresh, Scopes.bind?, if_pos free]

/-- A name that is free is let through. -/
theorem requireFree_of_isFree {machine : Machine Host} {scope : ScopeId} {name : Symbol}
    (free : machine.scopes.isFree scope name = true) (error : EvalError) :
    requireFree scope name error machine = .ended (.ok ()) machine := by
  change Eval.require (machine.scopes.isFree scope name) error machine = _
  rw [free]
  rfl

/-- Where the first part has ended, the rest is all that is left. -/
theorem Eval.bind_of_ended {first : Eval Host α} {β : Type} {value : α}
    {before after : Machine Host}
    (ended : first before = .ended (.ok value) after) (next : α → Eval Host β) :
    (first >>= next) before = next value after := by
  change (first before).andThen next = _
  rw [ended]
  rfl

variable {evaluate : Evaluator Host} {frame : Frame} {machine final : Machine Host} {name : Symbol}
  {pauses : List (Pause Host)} {outcome : Except Halt Value}

/-- A definition of a free name ends as the evaluation of its argument does, and binds its value. -/
theorem runDefine_course (frames : FramesScripts evaluate)
    (exist : frame.caller.scope < machine.scopes.next)
    (free : machine.scopes.isFree frame.caller.scope name = true) (arg : Argument)
    (course : (runDefine evaluate frame name arg machine).Course pauses outcome final)
    (undisturbed : ∀ pause ∈ pauses, pause.LeavesFree frame.caller.scope name) :
    (∃ halt, outcome = .error halt ∧
      (evalArgument evaluate frame.inside arg machine).Course pauses (.error halt) final) ∨
    ∃ value middle, outcome = .ok value ∧
      (evalArgument evaluate frame.inside arg machine).Course pauses (.ok value) middle ∧
      final = { middle with scopes := middle.scopes.assign frame.caller.scope name value } := by
  rw [runDefine, Eval.bind_of_ended (requireFree_of_isFree free _)] at course
  rcases Run.Course.of_andThen course with halted | ⟨value, middle, early, late, rfl, first, rest⟩
  · exact .inl halted
  have follows := frames.evalArgument frame.inside arg machine (Nat.le_refl _)
  have freeStill := follows.isFree_of_course first exist free fun pause member =>
    undisturbed pause (List.mem_append_left late member)
  rw [Eval.bind_of_ended (bindFresh_of_isFree freeStill _ _)] at rest
  cases rest
  rw [List.append_nil]
  exact .inr ⟨value, middle, rfl, first, rfl⟩

/-- With a loader the name is looked at first. -/
theorem runLoad_of_loader (evaluate : Evaluator Host) (frame : Frame) (name : Symbol)
    (path : String) (entries : List (String × Symbol)) (loader : machine.loader.isSome = true) :
    runLoad evaluate frame ((path, name) :: entries) machine =
      (requireFree frame.caller.scope name (.moduleLoad path name (.alreadyBound name)) >>= fun _ =>
        (loadModule evaluate path).mapError (.moduleLoad path name) >>= fun id =>
          bindFresh frame.caller.scope name (.module id path)
              (.moduleLoad path name (.alreadyBound name)) >>= fun _ =>
            runLoad evaluate frame entries) machine := by
  change (Eval.require machine.loader.isSome _ machine).andThen _ = _
  rw [loader]
  rfl

/-- Loading a module under a free name binds the name once the module is loaded, and goes on with
the entries that are left. -/
theorem runLoad_course (frames : FramesScripts evaluate)
    (exist : frame.caller.scope < machine.scopes.next)
    (free : machine.scopes.isFree frame.caller.scope name = true) (path : String)
    (entries : List (String × Symbol)) (loader : machine.loader.isSome = true)
    (course : (runLoad evaluate frame ((path, name) :: entries) machine).Course pauses outcome final)
    (undisturbed : ∀ pause ∈ pauses, pause.LeavesFree frame.caller.scope name) :
    (∃ halt, outcome = .error halt ∧
      ((loadModule evaluate path).mapError (.moduleLoad path name) machine).Course pauses
        (.error halt) final) ∨
    ∃ id middle early late, pauses = early ++ late ∧
      ((loadModule evaluate path).mapError (.moduleLoad path name) machine).Course early
        (.ok id) middle ∧
      (runLoad evaluate frame entries { middle with
        scopes := middle.scopes.assign frame.caller.scope name (.module id path) }).Course late
          outcome final := by
  rw [runLoad_of_loader evaluate frame name path entries loader,
    Eval.bind_of_ended (requireFree_of_isFree free _)] at course
  rcases Run.Course.of_andThen course with halted | ⟨id, middle, early, late, rfl, first, rest⟩
  · exact .inl halted
  have follows := (frames.loadModule path).mapError (.moduleLoad path name) machine (Nat.le_refl _)
  have freeStill := follows.follows.isFree_of_course first exist free fun pause member =>
    undisturbed pause (List.mem_append_left late member)
  rw [Eval.bind_of_ended (bindFresh_of_isFree freeStill _ _)] at rest
  exact .inr ⟨id, middle, early, late, rfl, first, rest⟩

/-- What the evaluation of scripts does to the scopes that are there when it starts at a place. Each
stretch of a run is framed by the scopes made before, whatever others do while it waits; a whole
course is, if they do as much; and a second look at a free name succeeds, if they leave it free. -/
structure FramesScopes (evaluate : Evaluator Host) (place : Place) (machine : Machine Host) :
    Prop where
  script : ∀ script, (evaluate script place machine).Follows
    (framing Host machine.scopes.next {place.scope}) machine
  scriptCourse : ∀ script pauses outcome final,
    (evaluate script place machine).Course pauses outcome final →
    (∀ pause ∈ pauses, Scopes.Framed machine.scopes.next {place.scope} pause.left.scopes
      pause.found.scopes) →
    Scopes.Framed machine.scopes.next {place.scope} machine.scopes final.scopes
  argument : ∀ arg, (evalArgument evaluate place arg machine).Follows
    (framing Host machine.scopes.next ∅) machine
  argumentCourse : ∀ arg writable pauses outcome final,
    (evalArgument evaluate place arg machine).Course pauses outcome final →
    (∀ pause ∈ pauses, Scopes.Framed machine.scopes.next writable pause.left.scopes
      pause.found.scopes) →
    Scopes.Framed machine.scopes.next writable machine.scopes final.scopes
  define : ∀ context name arg pauses outcome final, place.scope < machine.scopes.next →
    machine.scopes.isFree place.scope name = true →
    (runDefine evaluate ⟨place, context⟩ name arg machine).Course pauses outcome final →
    (∀ pause ∈ pauses, pause.LeavesFree place.scope name) →
    (∃ halt, outcome = .error halt ∧
      (evalArgument evaluate ⟨context, place.module⟩ arg machine).Course pauses (.error halt) final) ∨
    ∃ value middle, outcome = .ok value ∧
      (evalArgument evaluate ⟨context, place.module⟩ arg machine).Course pauses (.ok value) middle ∧
      final = { middle with scopes := middle.scopes.assign place.scope name value }
  load : ∀ context path name entries pauses outcome final, place.scope < machine.scopes.next →
    machine.scopes.isFree place.scope name = true → machine.loader.isSome = true →
    (runLoad evaluate ⟨place, context⟩ ((path, name) :: entries) machine).Course pauses outcome
      final →
    (∀ pause ∈ pauses, pause.LeavesFree place.scope name) →
    (∃ halt, outcome = .error halt ∧
      ((loadModule evaluate path).mapError (.moduleLoad path name) machine).Course pauses
        (.error halt) final) ∨
    ∃ id middle early late, pauses = early ++ late ∧
      ((loadModule evaluate path).mapError (.moduleLoad path name) machine).Course early (.ok id)
        middle ∧
      (runLoad evaluate ⟨place, context⟩ entries { middle with
        scopes := middle.scopes.assign place.scope name (.module id path) }).Course late outcome final

/-- Evaluation changes no scope made before but the one it is given, and that one only by further
names behind the others. -/
theorem evalScript_framesScopes (depth : Nat) (place : Place) (machine : Machine Host) :
    FramesScopes (evalScript depth) place machine := by
  have frames : FramesScripts (evalScript depth : Evaluator Host) := framesScripts_evalScript depth
  refine ⟨?_, ?_, ?_, ?_, ?_, ?_⟩
  · intro script
    exact frames script place _ machine (Nat.le_refl _)
  · intro script pauses outcome final course alike
    have follows := frames script place _ machine (Nat.le_refl _)
    exact follows.own_of_course course (fun pause member => (alike pause member).made) alike
  · intro arg
    exact frames.evalArgument place arg machine (Nat.le_refl _)
  · intro arg writable pauses outcome final course alike
    have follows := (frames.evalArgument place arg).writing writable machine (Nat.le_refl _)
    exact follows.own_of_course course (fun pause member => (alike pause member).made) alike
  · intro context name arg pauses outcome final exist free course undisturbed
    exact runDefine_course frames exist free arg course undisturbed
  · intro context path name entries pauses outcome final exist free loader course undisturbed
    exact runLoad_course frames exist free path entries loader course undisturbed

/-! ## A name bound in a pause -/

/-- A machine whose output has room for one line and holds one. -/
def crowded : Machine Unit :=
  let settings := Settings.default.update .stdout fun wanted => { wanted with capacity := 1 }
  (runScript (Machine.new settings none ()) [.mk ⟨"println", by decide⟩ [.text "one"]]).machine

/-- The name that two runs bind. -/
def contested : Symbol := ⟨"x", by decide⟩

/-- The script that binds the name to the value of an argument. -/
def contend (arg : Argument) : Script :=
  [.mk ⟨"let", by decide⟩ [.variable contested, arg]]

/-- An argument that has to wait for room. -/
def printing : Argument :=
  .script [.mk ⟨"println", by decide⟩ [.text "two"]]

/-- How a run has ended, its value left aside. -/
def Run.ending? : Run Host α → Option (Except Halt Unit)
  | .ended outcome _ => some (outcome.map fun _ => ())
  | .waiting .. => none

/-- A run waits in the argument of a definition, another one binds the name, and a line is taken.
Then the argument yields its value, but the definition is rejected. -/
theorem define_rejected_if_bound_in_pause :
    let waiting := runScript crowded (contend printing)
    let rival := runScript waiting.machine (contend (.text "taken"))
    let drained := (rival.machine.take stdoutId).1
    let argument := evalArgument (evalScript nestingLimit) ⟨crowded.scopes.next, mainModule⟩ printing
      { crowded with scopes := crowded.scopes.addBlock (crowded.moduleScope mainModule) }
    crowded.scopes.isFree (crowded.moduleScope mainModule) contested = true ∧
      rival.ending? = some (.ok ()) ∧
      (argument.rest drained).goOn.ending? = some (.ok ()) ∧
      (waiting.rest drained).goOn.ending? = some (.error (.failed (.alreadyBound contested))) := by
  decide +kernel

end CommandScript.Evaluation
