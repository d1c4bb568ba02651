import CommandScript.Proofs.Evaluation.Recording
import CommandScript.Proofs.Machine.Growth

/-!
# The table of modules over whole runs

A recording evaluation writes down which scripts of modules have run to completion. Over the whole
course of a run the table of modules grows by those modules and no others: a module whose script
fails is taken out again, and with it goes nothing that its script has loaded. This is a property of
computations that goes through where they are put together, whatever imports what.
-/

namespace CommandScript.Evaluation

open CommandScript.Machine CommandScript.Source

variable {Host α β : Type}

/-! ## The course of a load -/

/-- The load of a module that is not registered: it fails without a script, or the script runs while
the module is registered. -/
theorem loadModule_of_absent (evaluate : Evaluator Host) {path : String} {machine : Machine Host}
    (absent : machine.loaded? path = none) :
    (∃ error, loadModule evaluate path machine = .ended (.error error) machine) ∨
      ∃ load ∈ machine.loader,
        (∃ error, loadModule evaluate path machine =
          .ended (.error error) { machine with host := (load path machine.host).2 }) ∨
        ∃ script, loadModule evaluate path machine =
          ((evaluate script ⟨machine.scopes.next, machine.modules.size⟩
            (Machine.addModule { machine with host := (load path machine.host).2 } path)).onHalt
            fun failed => failed.unregister path).andThen fun _ =>
              Eval.pure machine.modules.size := by
  rw [loadModule, absent]
  cases present : machine.loader with
  | none => exact .inl ⟨_, rfl⟩
  | some load =>
      refine .inr ⟨load, rfl, ?_⟩
      dsimp only
      rw [← present]
      cases (load path machine.host).1 with
      | error error => exact .inl ⟨_, rfl⟩
      | ok script => exact .inr ⟨script, rfl⟩

/-- The course of the load of a module that is not registered. -/
theorem course_loadModule {evaluate : Evaluator Host} {path : String} {machine final : Machine Host}
    {pauses : List (Pause Host)} {outcome : Except Halt ModuleId}
    (absent : machine.loaded? path = none)
    (course : (loadModule evaluate path machine).Course pauses outcome final) :
    (∃ halt, outcome = .error halt ∧ final = machine) ∨
      ∃ load ∈ machine.loader,
        (∃ halt, outcome = .error halt ∧
          final = { machine with host := (load path machine.host).2 }) ∨
        ∃ script ending stopped,
          (evaluate script ⟨machine.scopes.next, machine.modules.size⟩
            (Machine.addModule { machine with host := (load path machine.host).2 } path)).Course
              pauses ending stopped ∧
          ((∃ halt, ending = .error halt ∧ outcome = .error halt ∧
              final = stopped.unregister path) ∨
            ∃ value, ending = .ok value ∧ outcome = .ok machine.modules.size ∧
              final = stopped) := by
  rcases loadModule_of_absent evaluate absent with ⟨error, refused⟩ | ⟨load, present, found⟩
  · rw [refused] at course
    cases course
    exact .inl ⟨error, rfl, rfl⟩
  refine .inr ⟨load, present, ?_⟩
  rcases found with ⟨error, refused⟩ | ⟨script, running⟩
  · rw [refused] at course
    cases course
    exact .inl ⟨error, rfl, rfl⟩
  rw [running] at course
  refine .inr ⟨script, ?_⟩
  rcases course.of_andThen with ⟨halt, rfl, stopping⟩ | ⟨value, _, _, _, rfl, first, last⟩
  · rcases stopping.of_onHalt with ⟨reason, stopped, same, ran, left⟩ | ⟨value, ended, -⟩
    · cases same
      exact ⟨_, stopped, ran, .inl ⟨halt, rfl, rfl, left⟩⟩
    · cases ended
  · rcases first.of_onHalt with ⟨reason, stopped, same, -⟩ | ⟨result, same, ran⟩
    · cases same
    · cases same
      cases last
      rw [List.append_nil]
      exact ⟨_, _, ran, .inr ⟨value, rfl, rfl, rfl⟩⟩

/-! ## Completed modules -/

/-- The modules whose scripts have run to completion, with their paths. -/
def completions : List Event → List (String × ModuleId)
  | [] => []
  | .pushed _ _ :: rest => completions rest
  | .completed path id :: rest => (path, id) :: completions rest

/-- The loads that are completed, one stretch after the other. -/
theorem completions_append (first second : List Event) :
    completions (first ++ second) = completions first ++ completions second := by
  induction first with
  | nil => rfl
  | cons event rest ih =>
      cases event with
      | pushed mailbox value => exact ih
      | completed path id => exact congrArg ((path, id) :: ·) ih

/-- From one machine to a later one the table of modules has grown by those, and only those, whose
scripts have run to completion in between. -/
def Settled (before : Machine Host) (events : List Event) (after : Machine Host) : Prop :=
  ∃ loads, before.Grown loads after ∧ loads.Perm (completions events)

namespace Settled

variable {before middle after : Machine Host} {earlier later events : List Event}

/-- Where the modules stay the same, everything is settled. -/
theorem of_sameModules (same : before.SameModules after) : Settled before [] after :=
  ⟨[], .of_sameModules same, .nil⟩

/-- What is settled in two stretches is settled in one. -/
theorem trans (first : Settled before earlier middle) (second : Settled middle later after) :
    Settled before (earlier ++ later) after := by
  obtain ⟨early, grownFirst, completedFirst⟩ := first
  obtain ⟨late, grownSecond, completedSecond⟩ := second
  refine ⟨early ++ late, grownFirst.trans grownSecond, ?_⟩
  rw [completions_append]
  exact completedFirst.append completedSecond

/-- A module whose script has failed is taken out again. -/
theorem of_failed {path : String} (absent : before.loaded? path = none)
    (inside : Settled (before.addModule path) events after) :
    Settled before events (after.unregister path) := by
  obtain ⟨loads, grown, completed⟩ := inside
  exact ⟨loads, grown.of_unregister absent, completed⟩

/-- A module whose script has run to completion stays. -/
theorem of_completed {path : String} (absent : before.loaded? path = none)
    (inside : Settled (before.addModule path) events after) :
    Settled before (events ++ [.completed path before.modules.size]) after := by
  obtain ⟨loads, grown, completed⟩ := inside
  refine ⟨_, grown.of_addModule absent, ?_⟩
  rw [completions_append]
  exact (completed.cons _).trans (List.perm_append_singleton ..).symm

end Settled

/-! ## Computations that settle -/

/-- In the pause others settle the table, and their events are recorded too. -/
def Pause.Settles (pause : Pause (Recorded Host)) : Prop :=
  ∀ machine events, pause.left = recorded machine events →
    ∃ later more, pause.found = recorded later (events ++ more) ∧ Settled machine more later

/-- Whole runs of the computation settle the table of modules, if others do while they wait. A value
that they end with has a property. -/
def Eval.Settles (ok : α → Prop) (computation : Eval (Recorded Host) α) : Prop :=
  ∀ machine events pauses outcome final,
    (computation (recorded machine events)).Course pauses outcome final →
    (∀ pause ∈ pauses, pause.Settles) →
    (∀ value, outcome = .ok value → ok value) ∧
      ∃ later more, final = recorded later (events ++ more) ∧ Settled machine more later

/-- What has come of a run so far, when it goes on on the machine as it is. -/
theorem settled_of_recorded {machine : Machine Host} {events : List Event} {later : Machine Host}
    (same : machine.SameModules later) :
    ∃ final more, recorded later events = recorded final (events ++ more) ∧
      Settled machine more final :=
  ⟨later, [], by rw [List.append_nil], .of_sameModules same⟩

namespace Eval.Settles

variable {ok : α → Prop} {fine : β → Prop} {computation : Eval (Recorded Host) α}

/-- A computation that ends at once and leaves the modules and the record alone. -/
theorem of_step
    (step : ∀ (machine : Machine Host) events, ∃ outcome later,
      computation (recorded machine events) = .ended outcome (recorded later events) ∧
        machine.SameModules later ∧ ∀ value, outcome = .ok value → ok value) :
    Settles ok computation := by
  intro machine events pauses outcome final course _
  obtain ⟨_, later, ended, same, good⟩ := step machine events
  rw [ended] at course
  cases course
  exact ⟨good, settled_of_recorded same⟩

/-- Computations settle one after the other. -/
theorem bind {next : α → Eval (Recorded Host) β} (head : Settles ok computation)
    (tail : ∀ value, ok value → Settles fine (next value)) :
    Settles fine (computation >>= next) := by
  intro machine events pauses outcome final course others
  rcases Run.Course.of_andThen course with ⟨halt, rfl, halted⟩ | found
  · exact ⟨nofun, (head machine events _ _ _ halted others).2⟩
  · obtain ⟨value, middle, early, late, rfl, first, second⟩ := found
    rw [List.forall_mem_append] at others
    obtain ⟨good, reached, more, rfl, settled⟩ := head machine events _ _ _ first others.1
    obtain ⟨fine, last, further, rfl, settledThen⟩ :=
      tail value (good value rfl) reached _ _ _ _ second others.2
    refine ⟨fine, last, more ++ further, ?_, settled.trans settledThen⟩
    rw [List.append_assoc]

theorem mapError (settles : Settles ok computation) (tell : EvalError → EvalError) :
    Settles ok (computation.mapError tell) := by
  intro machine events pauses outcome final course others
  rcases Run.Course.of_mapError course with ⟨halt, told, rfl, halted⟩ | ⟨value, rfl, ended⟩
  · exact ⟨nofun, (settles machine events _ _ _ halted others).2⟩
  · exact settles machine events _ _ _ ended others

end Eval.Settles

/-- Recording computations that settle, compared with nothing. -/
def settling (Host : Type) : Comparison (Recorded Host) (Recorded Host) :=
  .everywhere fun ok computation _ => computation.Settles ok

theorem settling_value (value : Value) : (settling Host).value value :=
  Comparison.everywhere_value value

/-- A look at the machine loads nothing. -/
theorem settling_read {ok : α → Prop} {look : Machine (Recorded Host) → α}
    (good : ∀ machine, ok (look machine)) : (Eval.read look).Settles ok :=
  .of_step fun machine events =>
    ⟨.ok (look (recorded machine events)), machine, rfl, .refl machine, by
      rintro value ⟨⟩
      exact good _⟩

/-- The single steps load nothing; only a definition changes a module, which grows by a function. -/
theorem settling_lawful : (settling Host).Lawful where
  pure good := .of_step fun machine _ => ⟨_, machine, rfl, .refl machine, by
    rintro value ⟨⟩
    exact good⟩
  fail _ := .of_step fun machine _ => ⟨_, machine, rfl, .refl machine, by rintro _ ⟨⟩⟩
  exhausted := .of_step fun machine _ => ⟨_, machine, rfl, .refl machine, by rintro _ ⟨⟩⟩
  bind head tail := head.bind tail
  mapError settles tell := settles.mapError tell
  newBlock _ := .of_step fun machine _ =>
    ⟨_, { machine with scopes := _ }, rfl, ⟨rfl, rfl, rfl⟩, fun _ _ => trivial⟩
  enterFunction _ _ := .of_step fun machine _ =>
    ⟨_, { machine with scopes := _ }, rfl, ⟨rfl, rfl, rfl⟩, fun _ _ => trivial⟩
  assign _ _ _ _ := .of_step fun machine _ =>
    ⟨_, { machine with scopes := _ }, rfl, ⟨rfl, rfl, rfl⟩, fun _ _ => trivial⟩
  bindFresh {scope} name value error _ _ := .of_step fun machine events => by
    rw [bindFresh, show (recorded machine events).scopes = machine.scopes from rfl]
    cases machine.scopes.bind? scope name value with
    | some scopes =>
        exact ⟨_, { machine with scopes := scopes }, rfl, ⟨rfl, rfl, rfl⟩, fun _ _ => trivial⟩
    | none => exact ⟨_, machine, rfl, .refl machine, by rintro _ ⟨⟩⟩
  isFree _ _ := settling_read fun _ => trivial
  lookup _ _ := settling_read fun _ value _ => settling_value value
  hasLoader := settling_read fun _ => trivial
  function? _ _ := settling_read fun _ _ _ => trivial
  owner _ _ _ := settling_read fun _ => trivial
  callProcess {id} name values _ _ := .of_step fun machine events => by
    obtain ⟨outcome, host, -, noted⟩ := callProcess_recorded id name values machine events
    exact ⟨outcome, _, noted, ⟨rfl, rfl, rfl⟩, fun value _ => settling_value value⟩
  insideFunction _ := settling_read fun _ => trivial
  isDefined _ _ := settling_read fun _ => trivial
  newFunction _ _ _ _ := settling_read fun _ => trivial
  define {module function} _ _ := by
    intro machine events pauses outcome final course _
    cases course
    refine ⟨fun _ _ => trivial, machine.define module function, [], ?_, [], ?_, .nil⟩
    · rw [List.append_nil]
      rfl
    · exact .of_define machine module function

/-! ## Services -/

/-- What is printed is on its way before; the machine stays as it is. -/
theorem course_printed {outcome : Mailbox.Outcome Value} {machine : Machine (Recorded Host)}
    {pauses : List (Pause (Recorded Host))} {ending : Except Halt Value}
    {final : Machine (Recorded Host)}
    (course : (printed outcome machine).Course pauses ending final) : final = machine := by
  cases outcome with
  | ok _ =>
      cases course
      rfl
  | error failure =>
      cases course
      rfl

/-- A push changes mailboxes only; if it has to wait, the others settle the table. -/
theorem settles_pushAndWait (mailbox : MailboxId) (value : Value) :
    (pushAndWait mailbox value : Eval (Recorded Host) Value).Settles (settling Host).value := by
  intro machine events pauses outcome final course others
  refine ⟨fun value _ => settling_value value, ?_⟩
  have only := (onlyMailboxes_push machine mailbox value (some printToken)).sameModules
  rw [pushAndWait, push_recorded] at course
  generalize machine.push mailbox value (some printToken) = pushed at course only
  obtain ⟨after, progress⟩ := pushed
  cases progress with
  | ended reached =>
      rw [course_printed course]
      exact settled_of_recorded only
  | waiting pending =>
      cases course with
      | resumed answer found rest =>
          rw [List.forall_mem_cons] at others
          obtain ⟨later, more, rfl, settled⟩ := others.1 after events rfl
          rw [course_printed rest]
          exact ⟨later, more, rfl, (Settled.of_sameModules only).trans settled⟩

/-- To write down that a value is pushed does not count as a completion. -/
theorem settles_recordPush (mailbox : MailboxId) (value : Value) :
    (recordPush mailbox value : Eval (Recorded Host) Value).Settles (settling Host).value := by
  intro machine events pauses outcome final course others
  obtain ⟨good, later, more, rfl, settled⟩ :=
    settles_pushAndWait mailbox value machine (events ++ [Event.pushed mailbox value]) pauses
      outcome final course others
  refine ⟨good, later, .pushed mailbox value :: more, ?_, settled⟩
  rw [List.append_assoc]
  rfl

/-- The script of a module with the look at whether it completes: it halts, or its completion is
written down. -/
theorem course_recordCompleted {evaluate : Evaluator (Recorded Host)}
    (scripts : (settling Host).Evaluators evaluate evaluate) {path : String} {script : Script}
    {place : Place} (machine : Machine Host) {events : List Event}
    {pauses : List (Pause (Recorded Host))} {outcome : Except Halt Value}
    {final : Machine (Recorded Host)}
    (course : (recordCompleted evaluate path script place (recorded machine events)).Course pauses
      outcome final)
    (others : ∀ pause ∈ pauses, pause.Settles) :
    ∃ later more, Settled machine more later ∧
      ((∃ halt, outcome = .error halt ∧ final = recorded later (events ++ more)) ∨
        ∃ value, outcome = .ok value ∧
          final = recorded later (events ++ (more ++ [.completed path place.module]))) := by
  rcases Run.Course.of_andThen course with ⟨halt, rfl, halted⟩ | found
  · obtain ⟨-, later, more, rfl, settled⟩ := scripts script place ⟨trivial, trivial⟩ machine events
      _ _ _ halted others
    exact ⟨later, more, settled, .inl ⟨halt, rfl, rfl⟩⟩
  · obtain ⟨value, middle, early, late, rfl, first, second⟩ := found
    rw [List.forall_mem_append] at others
    obtain ⟨-, later, more, rfl, settled⟩ := scripts script place ⟨trivial, trivial⟩ machine events
      _ _ _ first others.1
    cases second
    refine ⟨later, more, settled, .inr ⟨value, rfl, ?_⟩⟩
    rw [← List.append_assoc]
    rfl

/-- A module is registered while its script runs, and afterwards if that has completed. -/
theorem settles_loadModule {evaluate : Evaluator (Recorded Host)}
    (scripts : (settling Host).Evaluators evaluate evaluate) (path : String) :
    (loadModule (recordCompleted evaluate path) path).Settles (settling Host).module := by
  intro machine events pauses outcome final course others
  refine ⟨fun _ _ => trivial, ?_⟩
  cases known : machine.loaded? path with
  | some id =>
      rw [loadModule, show (recorded machine events).loaded? path = some id from known] at course
      cases course
      exact settled_of_recorded (.refl machine)
  | none =>
      have same (host : Host) : machine.SameModules { machine with host := host } := ⟨rfl, rfl, rfl⟩
      have absent : (recorded machine events).loaded? path = none := known
      rcases course_loadModule absent course with ⟨halt, rfl, rfl⟩ | ⟨noted, present, found⟩
      · exact settled_of_recorded (.refl machine)
      obtain ⟨load, -, rfl⟩ := Option.map_eq_some_iff.mp present
      rcases found with ⟨halt, rfl, rfl⟩ | ⟨script, ending, stopped, ran, found⟩
      · exact settled_of_recorded (same (load path machine.host).2)
      have called := Settled.of_sameModules (same (load path machine.host).2)
      obtain ⟨later, more, inside, reached⟩ := course_recordCompleted scripts
        (Machine.addModule { machine with host := (load path machine.host).2 } path) ran others
      rcases reached with ⟨halt, rfl, rfl⟩ | ⟨value, rfl, rfl⟩
      · rcases found with ⟨reason, -, -, rfl⟩ | ⟨value, ended, -⟩
        · exact ⟨later.unregister path, more, rfl, called.trans (.of_failed known inside)⟩
        · cases ended
      · rcases found with ⟨reason, ended, -⟩ | ⟨result, -, -, rfl⟩
        · cases ended
        · exact ⟨later, _, rfl, called.trans (.of_completed known inside)⟩

/-- A push leaves the modules alone, and a load settles them. -/
theorem settling_recording : (settling Host).OfServices .recording .recording where
  push mailbox text := settles_recordPush mailbox (.text text)
  load scripts path :=
    settles_loadModule (fun script place allowed => scripts script place allowed) path

/-- Recording evaluation settles the table of modules. -/
theorem settling_evalScript (depth : Nat) :
    (settling Host).Evaluators (evalScriptWith .recording depth)
      (evalScriptWith .recording depth) :=
  settling_lawful.evalScriptWith settling_recording depth

end CommandScript.Evaluation
