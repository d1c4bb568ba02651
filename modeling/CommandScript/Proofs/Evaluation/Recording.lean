import CommandScript.Proofs.Evaluation.Discipline
import CommandScript.Proofs.Evaluation.Matching
import Mathlib.Data.List.Forall2

/-!
# Evaluation with a record of events

What is pushed to a mailbox may be taken or dropped before anyone looks at the machine again, and
which scripts have run shows in no machine at all. A recording evaluation writes both down, in the
state of the host. It does nothing else: with the record wiped out it is the evaluation itself.
-/

namespace CommandScript.Evaluation

open CommandScript.Machine CommandScript.Source

variable {Host α : Type}

/-! ## Records -/

/-- What happens to the world in the course of evaluation. -/
inductive Event where
  | pushed (mailbox : MailboxId) (value : Value)
  /-- The script of the module of a path ran to completion. -/
  | completed (path : String) (module : ModuleId)

/-- The state of a host, with the events so far. -/
structure Recorded (Host : Type) where
  host : Host
  events : List Event

/-- The process on a host with a record, which it does not touch. -/
def recordedProcess (process : HostProcess Host) : HostProcess (Recorded Host) where
  name := process.name
  run call state :=
    let (result, host) := process.run call state.host
    (result, { state with host := host })

/-- The loader of a host with a record, which it does not touch. -/
def recordedLoader (load : Loader Host) : Loader (Recorded Host) :=
  fun path state =>
    let (result, host) := load path state.host
    (result, { state with host := host })

/-- The machine with a record. -/
def recorded (machine : Machine Host) (events : List Event) : Machine (Recorded Host) where
  scopes := machine.scopes
  modules := machine.modules
  registry := machine.registry
  mailboxes := machine.mailboxes
  channels := machine.channels
  processes := machine.processes.map recordedProcess
  loader := machine.loader.map recordedLoader
  host := ⟨machine.host, events⟩
  signals := machine.signals
  settings := machine.settings
  nextFunction := machine.nextFunction

/-- Writes an event down. -/
def record (event : Event) : Eval (Recorded Host) Unit :=
  Eval.modify fun machine =>
    { machine with host := { machine.host with events := machine.host.events ++ [event] } }

/-! ## Recording services -/

/-- Pushes a value and writes it down. -/
def recordPush (mailbox : MailboxId) (value : Value) : Eval (Recorded Host) Value := do
  record (.pushed mailbox value)
  pushAndWait mailbox value

/-- The evaluator that writes down when the script of the module of a path has run to completion. -/
def recordCompleted (evaluate : Evaluator (Recorded Host)) (path : String) :
    Evaluator (Recorded Host) :=
  fun script place => do
    let value ← evaluate script place
    record (.completed path place.module)
    return value

/-- The services that write down what is pushed, and which modules have run. -/
def Services.recording : Services (Recorded Host) :=
  ⟨recordPush, fun evaluate path => loadModule (recordCompleted evaluate path) path⟩

/-! ## Wiping out the record -/

/-- The machine with any record. -/
def RecordOf (noted : Machine (Recorded Host)) (machine : Machine Host) : Prop :=
  ∃ events, noted = recorded machine events

/-- Recording evaluation is compared with the evaluation itself. -/
def erasing (Host : Type) : Comparison (Recorded Host) Host :=
  .everywhere (Eval.Matches RecordOf)

theorem erasing_value (value : Value) : (erasing Host).value value :=
  Comparison.everywhere_value value

/-- A process is run on the state of the host, whatever the record is. -/
theorem callProcess_recorded (id : ProcessId) (name : String) (values : List Value)
    (machine : Machine Host) (events : List Event) : ∃ outcome host,
      callProcess id name values machine = .ended outcome { machine with host := host } ∧
      callProcess id name values (recorded machine events) =
        .ended outcome (recorded { machine with host := host } events) := by
  have found : (recorded machine events).processes[id]? =
      machine.processes[id]?.map recordedProcess := Array.getElem?_map
  rw [callProcess, callProcess, found]
  cases machine.processes[id]? with
  | none => exact ⟨_, machine.host, rfl, rfl⟩
  | some process =>
      have reads : (recorded machine events).host.host = machine.host := rfl
      have counts : (recorded machine events).counts = machine.counts := rfl
      dsimp only [Option.map_some, recordedProcess]
      rw [reads, counts]
      cases (process.run ⟨values, machine.counts⟩ machine.host).1 with
      | ok value => exact ⟨_, _, rfl, rfl⟩
      | error error => exact ⟨_, _, rfl, rfl⟩

/-- A process sees the host without the notes. -/
theorem erasing_callProcess (id : ProcessId) (name : String) (values : List Value) :
    Eval.Matches RecordOf (erasing Host).value (callProcess id name values)
      (callProcess id name values : Eval Host Value) := by
  rintro - machine ⟨events, rfl⟩
  obtain ⟨outcome, host, plain, noted⟩ := callProcess_recorded id name values machine events
  rw [plain, noted]
  exact .ended (fun value _ => erasing_value value) ⟨events, rfl⟩

/-- The single steps do the same on a machine that takes notes. -/
theorem erasing_lawful : (erasing Host).Lawful where
  pure good := .pure good
  fail error := .fail error
  exhausted := .exhausted
  bind head tail := head.bind tail
  mapError matched tell := matched.mapError tell
  newBlock _ := by
    rintro - machine ⟨events, rfl⟩
    exact .value trivial ⟨events, rfl⟩
  enterFunction _ _ := by
    rintro - machine ⟨events, rfl⟩
    exact .value trivial ⟨events, rfl⟩
  assign name _ _ _ := by
    rintro - machine ⟨events, rfl⟩
    exact .value trivial ⟨events, rfl⟩
  bindFresh {scope} name value error _ _ := by
    rintro - machine ⟨events, rfl⟩
    rw [bindFresh, bindFresh, show (recorded machine events).scopes = machine.scopes from rfl]
    cases machine.scopes.bind? scope name value with
    | some scopes => exact .value trivial ⟨events, rfl⟩
    | none => exact .halted ⟨events, rfl⟩
  isFree name _ := .read fun _ _ ⟨_, same⟩ => same ▸ ⟨rfl, trivial⟩
  lookup name _ := .read fun _ _ ⟨_, same⟩ => same ▸ ⟨rfl, fun value _ => erasing_value value⟩
  hasLoader := .read fun _ machine ⟨_, same⟩ => same ▸ ⟨by
    cases present : machine.loader <;> simp [recorded, present], trivial⟩
  function? name _ := .read fun _ _ ⟨_, same⟩ => same ▸ ⟨rfl, fun _ _ => trivial⟩
  owner path _ _ := .read fun _ _ ⟨_, same⟩ => same ▸ ⟨rfl, trivial⟩
  callProcess name _ _ _ := erasing_callProcess _ name _
  insideFunction _ := .read fun _ _ ⟨_, same⟩ => same ▸ ⟨rfl, trivial⟩
  isDefined name _ := .read fun _ _ ⟨_, same⟩ => same ▸ ⟨rfl, trivial⟩
  newFunction name params body _ := .read fun _ _ ⟨_, same⟩ => same ▸ ⟨rfl, trivial⟩
  define _ _ := .modify fun _ _ ⟨events, same⟩ => same ▸ ⟨events, rfl⟩

/-- What a print command makes of an outcome does not depend on notes. -/
theorem erasing_printed (outcome : Mailbox.Outcome Value) {noted : Machine (Recorded Host)}
    {machine : Machine Host} (same : RecordOf noted machine) :
    Run.Matches RecordOf (erasing Host).value (printed outcome noted) (printed outcome machine) := by
  cases outcome with
  | ok _ => exact .value trivial same
  | error failure => exact .halted same

/-- A push does not depend on the record, and leaves it alone. -/
theorem push_recorded (machine : Machine Host) (events : List Event) (mailbox : MailboxId)
    (value : Value) (token : Option Mailbox.TokenId) :
    (recorded machine events).push mailbox value token =
      (recorded (machine.push mailbox value token).1 events,
        (machine.push mailbox value token).2) := by
  have same : machine.SameMailboxes (recorded machine events) := ⟨rfl, rfl⟩
  obtain ⟨mailboxes, only⟩ := onlyMailboxes_push machine mailbox value token
  rw [same.push, only]
  rfl

/-- A push does the same on a machine that takes notes. -/
theorem erasing_pushAndWait (mailbox : MailboxId) (value : Value) :
    Eval.Matches RecordOf (erasing Host).value (pushAndWait mailbox value)
      (pushAndWait mailbox value : Eval Host Value) := by
  rintro - machine ⟨events, rfl⟩
  rw [pushAndWait, pushAndWait, push_recorded]
  cases machine.push mailbox value (some printToken) with
  | mk after progress =>
      cases progress with
      | ended outcome => exact erasing_printed outcome ⟨events, rfl⟩
      | waiting pending =>
          exact .waiting ⟨events, rfl⟩ fun answer _ _ same => erasing_printed answer same

/-- To write an event down makes no difference. -/
theorem erasing_record {ok : α → Prop} {next : Eval (Recorded Host) α} {other : Eval Host α}
    (matched : Eval.Matches RecordOf ok next other) (event : Event) :
    Eval.Matches RecordOf ok (record event >>= fun _ => next) other := by
  rintro - machine ⟨events, rfl⟩
  exact matched _ machine ⟨events ++ [event], rfl⟩

/-- To note that a script has ended changes nothing else. -/
theorem erasing_recordCompleted {evaluate : Evaluator (Recorded Host)} {other : Evaluator Host}
    (scripts : (erasing Host).Evaluators evaluate other) (path : String) :
    (erasing Host).Evaluators (recordCompleted evaluate path) other := by
  intro script place allowed noted machine same
  rw [← Eval.andThen_pure (other script place machine)]
  refine (scripts script place allowed noted machine same).andThen fun value noted machine good => ?_
  exact erasing_record (.pure good) (.completed path place.module) noted machine

/-- A load does the same on a machine that takes notes. -/
theorem erasing_loadModule {evaluate : Evaluator (Recorded Host)} {other : Evaluator Host}
    (scripts : (erasing Host).Evaluators evaluate other) (path : String) :
    Eval.Matches RecordOf (fun _ => True) (loadModule evaluate path) (loadModule other path) := by
  rintro - machine ⟨events, rfl⟩
  have loader : (recorded machine events).loader = machine.loader.map recordedLoader := rfl
  rw [loadModule, loadModule, loader, show (recorded machine events).loaded? path =
    machine.loaded? path from rfl]
  cases machine.loaded? path with
  | some id => exact .value trivial ⟨events, rfl⟩
  | none =>
      cases machine.loader with
      | none => exact .halted ⟨events, rfl⟩
      | some load =>
          have reads : (recorded machine events).host.host = machine.host := rfl
          dsimp only [Option.map_some, recordedLoader]
          rw [reads]
          cases (load path machine.host).1 with
          | error error => exact .halted ⟨events, rfl⟩
          | ok script =>
              refine .andThen (.onHalt (scripts script _ ⟨trivial, trivial⟩ _ _ ?_) ?_) ?_
              · exact ⟨events, rfl⟩
              · rintro - failed ⟨events, rfl⟩
                exact ⟨events, rfl⟩
              · exact fun _ _ _ _ same => .value trivial same

/-- The services that take notes do otherwise what the usual ones do. -/
theorem erasing_recording : (erasing Host).OfServices .recording .standard where
  push mailbox text := erasing_record (erasing_pushAndWait mailbox (.text text)) _
  load scripts path := erasing_loadModule (erasing_recordCompleted scripts path) path

/-- Recording evaluation goes on like the evaluation itself. -/
theorem erasing_evalScript (depth : Nat) :
    (erasing Host).Evaluators (evalScriptWith .recording depth) (evalScript depth) := by
  rw [← evalScriptWith_standard]
  exact erasing_lawful.evalScriptWith erasing_recording depth

/-! ## Recorded courses -/

/-- The same pause with a record, which nothing is added to. -/
def Pause.Notes (noted : Pause (Recorded Host)) (pause : Pause Host) : Prop :=
  ∃ events, noted = ⟨recorded pause.left events, recorded pause.found events⟩

/-- Every course that a run may take, a recording one may take too. -/
theorem noted_course {ok : α → Prop} {run : Run (Recorded Host) α} {plain : Run Host α}
    {pauses : List (Pause Host)} {outcome : Except Halt α} {final : Machine Host}
    (matched : run.Matches RecordOf ok plain) (course : plain.Course pauses outcome final) :
    ∃ noted events, run.Course noted outcome (recorded final events) ∧
      List.Forall₂ Pause.Notes noted pauses := by
  induction matched generalizing pauses with
  | ended good same =>
      cases course
      obtain ⟨events, rfl⟩ := same
      exact ⟨[], events, .ended _ _, .nil⟩
  | waiting same _ ih =>
      cases course with
      | resumed answer later rest =>
          obtain ⟨events, rfl⟩ := same
          obtain ⟨noted, last, recounted, alike⟩ :=
            ih answer (recorded later events) later ⟨events, rfl⟩ rest
          exact ⟨_, last, .resumed answer (recorded later events) recounted,
            .cons ⟨events, rfl⟩ alike⟩

end CommandScript.Evaluation
