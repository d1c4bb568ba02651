import CommandScript.Evaluation.Evaluator
import CommandScript.Proofs.Evaluation.Completion
import CommandScript.Proofs.Evaluation.Discipline
import CommandScript.Proofs.Evaluation.Nesting
import CommandScript.Proofs.Machine.Functionless
import CommandScript.Proofs.Sequence.Packed

/-!
# Evaluation without functions comes to an end

Where there are no functions, a script is evaluated inside another for two reasons only: it stands
in an argument of a command, or it is the script of a module that is not registered yet. The first
can happen no more often than scripts are nested. After the second, for as long as the run goes on,
there is one module less to load. So it takes no more depth than the scripts are nested, and for
each module that is left to load the depth of the deepest module more.
-/

namespace CommandScript.Evaluation

open CommandScript.Machine CommandScript.Source

variable {Host : Type} {keeps : Keeps Host} {memory : Loader.Memory} {start : Machine Host}

/-- There are no functions, and what is registered stays registered. -/
def bare (keeps : Keeps Host) (memory : Loader.Memory) : Footing Host where
  holds := Machine.Functionless keeps memory
  later := Machine.KeepsRegistered
  refl := .refl
  trans := .trans
  request functionless only := ⟨functionless.onlyMailboxes only, only.keepsRegistered⟩

/-! ## Steps -/

theorem completes_newBlock (parent : ScopeId) :
    (newBlock parent).Completes (bare keeps memory) (fun _ => True) start :=
  fun _ functionless _ => .value (functionless.addBlock parent) (.of_registry rfl) trivial

theorem completes_assign (scope : ScopeId) (name : Symbol) {value : Value} (plain : value.IsPlain) :
    (assign scope name value).Completes (bare keeps memory) (fun _ => True) start :=
  fun _ functionless _ =>
    .value (functionless.assign scope name plain) (.of_registry rfl) trivial

/-- A plain value is bound at once, or its name refused. -/
theorem completes_bindFresh (scope : ScopeId) (name : Symbol) {value : Value} (error : EvalError)
    (plain : value.IsPlain) :
    (bindFresh scope name value error).Completes (bare keeps memory) (fun _ => True) start := by
  intro machine functionless later
  rw [bindFresh, Scopes.bind?]
  cases machine.scopes.isFree scope name with
  | true => exact .value (functionless.assign scope name plain) (.of_registry rfl) trivial
  | false => exact .failed error

/-- What is looked up on a machine without functions is plain. -/
theorem completes_lookup (scope : ScopeId) (name : Symbol) :
    (Eval.read fun machine => machine.scopes.lookup scope name).Completes (bare keeps memory)
      (fun found => ∀ value ∈ found, Value.IsPlain value) start :=
  .read fun _ functionless _ found => functionless.isPlain_of_lookup found

/-- A process yields a plain value for plain arguments. -/
theorem completes_callProcess (id : ProcessId) (name : String) {values : List Value}
    (plain : ∀ value ∈ values, value.IsPlain) :
    (callProcess id name values).Completes (bare keeps memory) Value.IsPlain start := by
  intro machine functionless later
  rw [callProcess]
  cases found : machine.processes[id]? with
  | none => exact .failed _
  | some process =>
      dsimp only
      cases yielded : (process.run ⟨values, machine.counts⟩ machine.host).1 with
      | ok value =>
          exact .value (functionless.afterProcess found plain machine.counts) (.of_registry rfl)
            (functionless.process_yields found plain machine.counts yielded)
      | error error => exact .failed error

/-- What a print command makes of an outcome is plain. -/
theorem completes_printed (outcome : Mailbox.Outcome Value) {machine : Machine Host}
    (functionless : machine.Functionless keeps memory) :
    (printed outcome machine).Completes (bare keeps memory) Value.IsPlain machine := by
  cases outcome with
  | ok _ => exact .value functionless (.refl machine) (Value.isPlain_of_nodes rfl)
  | error failure => exact .failed _

/-- A push completes when its answer comes, whatever happens before. -/
theorem completes_pushAndWait (mailbox : MailboxId) (value : Value) :
    (pushAndWait mailbox value).Completes (bare keeps memory) Value.IsPlain start := by
  intro machine functionless later
  have pushed := machine.onlyMailboxes_push mailbox value (some printToken)
  rw [pushAndWait]
  generalize machine.push mailbox value (some printToken) = result at pushed ⊢
  obtain ⟨after, progress⟩ := result
  have kept := functionless.onlyMailboxes pushed
  have further := pushed.keepsRegistered
  cases progress with
  | ended outcome => exact (completes_printed outcome kept).after further
  | waiting pending =>
      exact .waiting kept further fun answer found still _ => completes_printed answer still

/-! ## Room -/

/-- The depth suffices for scripts nested within a bound, and for all modules that are left. -/
def Room (memory : Loader.Memory) (machine : Machine Host) (rank depth : Nat) : Prop :=
  rank + (machine.unregistered memory).card * memory.nest ≤ depth

/-- There is no less room on a machine where more modules are registered. -/
theorem Room.onward {rank depth : Nat} {later : Machine Host} (room : Room memory start rank depth)
    (kept : start.KeepsRegistered later) : Room memory later rank depth :=
  (Nat.add_le_add_left (Nat.mul_le_mul_right _ (kept.card_le memory)) rank).trans room

/-- A module that is left to load has room for its script. -/
theorem Room.addModule {rank depth : Nat} {machine : Machine Host} {path : String}
    {text : Loader.ModuleText} (room : Room memory machine rank depth)
    (member : (path, text) ∈ memory.modules) (absent : machine.loaded? path = none) :
    Room memory (machine.addModule path) memory.nest depth := by
  have fewer := card_unregistered_addModule_lt member absent
  calc memory.nest + ((machine.addModule path).unregistered memory).card * memory.nest
    _ = (((machine.addModule path).unregistered memory).card + 1) * memory.nest := by
        rw [Nat.add_one_mul, Nat.add_comm]
    _ ≤ (machine.unregistered memory).card * memory.nest := Nat.mul_le_mul_right _ fewer
    _ ≤ rank + (machine.unregistered memory).card * memory.nest := Nat.le_add_left ..
    _ ≤ depth := room

/-- On machines without functions, scripts that have room for them come to an end. -/
def CompletesWithin (keeps : Keeps Host) (memory : Loader.Memory) (evaluate : Evaluator Host)
    (depth : Nat) : Prop :=
  ∀ {script : Script} {rank : Nat}, Script.Fits rank script → ∀ {start : Machine Host},
    Room memory start rank depth → ∀ place,
      (evaluate script place).Completes (bare keeps memory) Value.IsPlain start

/-- The parts of a command that fit a bound are within the scripts that do. -/
theorem Form.Fits.within {rank : Nat} {form : Form} (fits : form.Fits rank) :
    form.Within (Argument.Fits rank) (Script.Fits rank) False True := by
  cases fits with
  | define name fits => exact fits
  | choose tested fits others => exact ⟨tested, fits, others⟩
  | select each =>
      exact fun clause member => ⟨(each clause member).condition, (each clause member).body⟩
  | guard tested fits => exact ⟨tested, fits⟩
  | loop counter starts stops fits => exact ⟨starts, stops, fits⟩
  | load entries => trivial
  | print channel each => exact each
  | block fits => exact fits
  | truth value => trivial

/-- The part of the language that defines no functions, with scripts nested within a bound. -/
def fitting (rank : Nat) : Fragment where
  argument := Argument.Fits rank
  command := Command.Fits rank
  script := Script.Fits rank
  defining := False
  loading := True
  script_of_argument fits := fits.script
  items_of_argument fits := fits.items
  args_of_command {given} fits := by
    obtain ⟨head, args⟩ := given
    exact fits.arguments
  form_of_command {given builtin form} fits called shaped := by
    obtain ⟨head, args⟩ := given
    have ordinary : builtin ≠ .function := by
      rintro rfl
      have name := List.find?_some called
      exact fits.head_ne (beq_iff_eq.mp name).symm
    exact ((Form.ofArguments?_eq_some_iff.mp shaped).fits ordinary fits.arguments).within

/-- The judgement that scripts nested within a bound come to an end after a machine. -/
def completing (keeps : Keeps Host) (memory : Loader.Memory) (rank : Nat) (start : Machine Host) :
    Judgement Host Host where
  toConduct := (bare keeps memory).completing start
  fragment := fitting rank
  place _ _ := True
  home _ _ := True
  below _ _ _ := True
  module _ _ := True
  value _ := Value.IsPlain
  encoded _ := True
  list _ := True
  value_onward plain _ := plain
  value_symbol _ _ := Value.isPlain_of_nodes rfl
  value_number _ _ := Value.isPlain_of_nodes rfl
  value_text _ _ := Value.isPlain_of_nodes rfl
  value_nothing _ := Value.isPlain_of_nodes rfl
  value_list _ := Value.isPlain_of_nodes rfl
  newBlock _ _ _ := completes_newBlock _
  assign name _ _ plain _ _ := completes_assign _ name plain
  bindFresh name _ error _ plain _ _ := completes_bindFresh _ name error plain
  isFree _ _ _ _ := .look _
  lookup name _ _ _ := completes_lookup _ name
  hasLoader _ _ := .look _
  function? name _ _ _ := by
    refine .read fun machine functionless function found => ?_
    rw [functionless.tables.function?_eq_none] at found
    cases found
  callProcess _ plain _ _ := completes_callProcess _ _ plain
  runFunction _ _ _ defines _ := defines.elim

/-- There is no function to call. -/
theorem callers_completing (rank : Nat) (evaluate : Evaluator Host) :
    (completing keeps memory rank start).Callers (callFunction evaluate) (callFunction evaluate) :=
  fun _ function _ _ plain _ _ => absurd rfl (plain function.closure)

namespace CompletesWithin

variable {evaluate : Evaluator Host} {rank depth : Nat}
  (scripts : CompletesWithin keeps memory evaluate depth) (room : Room memory start rank depth)
include scripts room

/-- Scripts that complete are evaluators of the judgement. -/
theorem evaluators : (completing keeps memory rank start).Evaluators evaluate evaluate :=
  fun _ _ place fits _ _ later => scripts fits (room.onward later) place

variable (plain : memory.definesNone = true)
include plain

/-- The module is registered before its script runs, so that there is one less to load. -/
theorem loadModule (path : String) :
    (loadModule evaluate path).Completes (bare keeps memory)
      (fun id => Value.IsPlain (.module id path)) start := by
  have leadsNowhere : ∀ id, Value.IsPlain (.module id path) := by
    rintro id scope ⟨⟩
  intro machine functionless later
  rw [Evaluation.loadModule]
  cases known : machine.loaded? path with
  | some id => exact .value functionless (.refl machine) (leadsNowhere id)
  | none =>
      cases present : machine.loader with
      | none => exact .failed _
      | some load =>
          have told : load path machine.host = (memory.load path, machine.host) := by
            rw [functionless.loads load present]
            rfl
          dsimp only
          rw [told, ← present]
          cases loaded : memory.load path with
          | error error => exact .failed _
          | ok script =>
              obtain ⟨text, member, -⟩ := Loader.Memory.mem_of_load loaded
              have fits := Loader.Memory.fits_of_load plain loaded
              have inside := (room.onward later).addModule member known
              have completes := scripts fits inside ⟨machine.scopes.next, machine.modules.size⟩
                (machine.addModule path) (functionless.addModule path) (.refl _)
              refine ((completes.onHalt _).andThen fun _ _ _ _ => ?_).after
                (keepsRegistered_addModule machine path)
              exact .pure (leadsNowhere _)

/-- To load a module completes. -/
theorem loaders : (completing keeps memory rank start).Loaders (Evaluation.loadModule evaluate)
    (Evaluation.loadModule evaluate) :=
  fun _ path _ later => scripts.loadModule (room.onward later) plain path

/-- Commands that fit complete. -/
theorem evalCommands (place : Place) {commands : Script}
    (fits : ∀ command ∈ commands, command.Fits rank) {last : Value} (good : last.IsPlain) :
    (evalCommands evaluate place commands last).Completes (bare keeps memory) Value.IsPlain
      start := by
  have completes : (completing keeps memory rank start).rel () (fun _ => Value.IsPlain)
      (evalCommandsBy callFunction evaluate place commands last)
      (evalCommandsBy callFunction evaluate place commands last) :=
    (scripts.evaluators room).evalCommandsBy (callers_completing rank evaluate)
      (scripts.loaders room plain) (fun _ mailbox _ _ _ => completes_pushAndWait mailbox _) trivial
      fits good
  rw [← evalCommandsBy_callFunction]
  exact completes start (.refl start)

end CompletesWithin

/-- By induction on the depth: a script leaves one less for the scripts inside it. -/
theorem completesWithin_evalScript (plain : memory.definesNone = true) (depth : Nat) :
    CompletesWithin keeps memory (evalScript depth) depth := by
  induction depth with
  | zero =>
      intro script rank fits start room
      have nested : 1 ≤ rank := (Nat.le_add_left ..).trans fits.bound
      have none : rank ≤ 0 := (Nat.le_add_right ..).trans room
      omega
  | succ depth ih =>
      intro script rank fits start room place
      obtain ⟨inner, rfl⟩ := Nat.exists_eq_add_one_of_ne_zero
        (Nat.ne_of_gt ((Nat.le_add_left ..).trans fits.bound))
      have inside : Room memory start inner depth := by
        rw [Room, Nat.add_right_comm] at room
        exact Nat.le_of_succ_le_succ room
      exact ih.evalCommands inside plain place fits.commands (Value.isPlain_of_nodes rfl)

/-! ## Loops -/

section Loops

variable {pauses : List (Pause Host)} {machine final : Machine Host}

/-- An iteration yields one result, and there are as many as are left. -/
theorem size_of_iterate {evaluate : Evaluator Host} {place : Place} {counter : Symbol}
    {first step : Float} {body : Script} {left index : Nat} {results all : Sequence Argument}
    (course : (iterate evaluate place counter first step body left index results machine).Course
      pauses (.ok all) final) : all.size = results.size + left := by
  induction left generalizing index results machine pauses with
  | zero =>
      cases course
      rfl
  | succ left ih =>
      obtain ⟨scope, _, _, _, -, course⟩ := course.of_bind
      obtain ⟨_, _, _, _, -, course⟩ := course.of_bind
      obtain ⟨value, _, _, _, -, course⟩ := course.of_bind
      obtain ⟨result, _, _, _, -, course⟩ := course.of_bind
      rw [ih course, Sequence.size_push, Nat.add_right_comm, Nat.add_assoc]

/-- How often the body of a loop is run is settled by the bounds, which have been evaluated before
it is run for the first time. -/
theorem runLoop_counted {evaluate : Evaluator Host} {frame : Frame} {counter : Symbol}
    {first last : Argument} {body : Script} {value : Value}
    (course : (runLoop evaluate frame counter first last body machine).Course pauses (.ok value)
      final) :
    ∃ lower upper middle before early late, ∃ results : Sequence Argument,
      (numberOf evaluate frame.inside first machine).Course early (.ok lower) middle ∧
        (numberOf evaluate frame.inside last middle).Course late (.ok upper) before ∧
        value = .list results ∧ results.size = loopCount lower upper := by
  obtain ⟨lower, middle, early, _, starts, course⟩ := course.of_bind
  obtain ⟨upper, before, late, _, stops, course⟩ := course.of_bind
  obtain ⟨_, _, _, _, -, course⟩ := course.of_bind
  obtain ⟨_, _, _, _, -, course⟩ := course.of_bind
  obtain ⟨results, _, _, _, iterated, course⟩ := course.of_bind
  have size := size_of_iterate iterated
  cases course
  exact ⟨lower, upper, middle, before, early, late, results, starts, stops, rfl,
    size.trans (Nat.zero_add _)⟩

end Loops

end CommandScript.Evaluation
