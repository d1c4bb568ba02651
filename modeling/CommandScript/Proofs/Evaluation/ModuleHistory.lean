import CommandScript.Proofs.Evaluation.ModuleTable
import CommandScript.Proofs.Evaluation.SecondCheck

/-!
# The table of modules between runs

Scripts are run one after another, and others may act in between and while a run waits, as long as
they let the modules alone. Then the table of modules holds the main module and, behind it, those
modules whose scripts have run to completion. Nothing that is in it is ever removed or replaced.
-/

namespace CommandScript.Evaluation

open CommandScript.Machine CommandScript.Source

variable {Host α : Type}

/-! ## From recorded courses to plain ones -/

/-- A record does not hide the modules. -/
theorem sameModules_of_recorded {first second : Machine Host} {events others : List Event}
    (same : recorded first events = recorded second others) :
    events = others ∧ first.SameModules second := by
  refine ⟨congrArg (fun machine => machine.host.events) same, ?_, ?_, ?_⟩
  · exact (congrArg Machine.modules same).symm
  · exact (congrArg Machine.registry same).symm
  · exact (congrArg Machine.nextFunction same).symm

/-- A pause in which the modules are let alone settles the table. -/
theorem Pause.Notes.settles {noted : Pause (Recorded Host)} {pause : Pause Host}
    (notes : noted.Notes pause) (spared : pause.left.SameModules pause.found) : noted.Settles := by
  obtain ⟨written, rfl⟩ := notes
  intro machine events left
  obtain ⟨rfl, same⟩ := sameModules_of_recorded left
  exact settled_of_recorded (same.symm.trans spared)

/-- Pauses that leave the modules alone are settled. -/
theorem settles_of_notes {noted : List (Pause (Recorded Host))} {pauses : List (Pause Host)}
    (notes : List.Forall₂ Pause.Notes noted pauses)
    (spared : ∀ pause ∈ pauses, pause.left.SameModules pause.found) :
    ∀ pause ∈ noted, pause.Settles := by
  induction notes with
  | nil => exact List.forall_mem_nil _
  | cons same _ ih =>
      rw [List.forall_mem_cons] at spared
      exact List.forall_mem_cons.mpr ⟨same.settles spared.1, ih spared.2⟩

/-- What a recording computation has settled, when the plain one is taken up after pauses in which
the modules are let alone. -/
theorem Eval.Settles.of_notes {computation : Eval (Recorded Host) α} {ok : α → Prop}
    (settles : computation.Settles ok) {machine final : Machine Host} {events : List Event}
    {noted : List (Pause (Recorded Host))} {pauses : List (Pause Host)} {outcome : Except Halt α}
    (course : (computation (recorded machine [])).Course noted outcome (recorded final events))
    (notes : List.Forall₂ Pause.Notes noted pauses)
    (spared : ∀ pause ∈ pauses, pause.left.SameModules pause.found) :
    Settled machine events final := by
  obtain ⟨-, later, more, reached, settled⟩ :=
    settles machine [] noted outcome _ course (settles_of_notes notes spared)
  obtain ⟨rfl, same⟩ := sameModules_of_recorded reached
  rw [← List.append_nil events]
  exact settled.trans (.of_sameModules same.symm)

/-- Every registered module is found under its path as before, and every function in the table of
its module. -/
structure Kept (before after : Machine Host) : Prop where
  loaded : ∀ path id, before.loaded? path = some id → after.loaded? path = some id
  defined : ∀ id name function, before.function? id name = some function →
    after.function? id name = some function

/-- A table that has only grown still holds everything. -/
theorem Settled.kept {before after : Machine Host} {events : List Event}
    (settled : Settled before events after) : Kept before after := by
  obtain ⟨loads, grown, -⟩ := settled
  exact ⟨fun _ _ => grown.loaded?, fun _ _ _ => grown.tables⟩

/-! ## Runs -/

variable {depth : Nat} {script : Script} {place : Place} {machine final : Machine Host}
  {pauses : List (Pause Host)} {outcome : Except Halt Value} {events : List Event}

/-- These events happen when the run of a script takes a course: the recording evaluator writes them
down on the same course. -/
def Recounts (depth : Nat) (script : Script) (place : Place) (machine : Machine Host)
    (pauses : List (Pause Host)) (outcome : Except Halt Value) (final : Machine Host)
    (events : List Event) : Prop :=
  ∃ noted, (evalScriptWith .recording depth script place (recorded machine [])).Course noted outcome
    (recorded final events) ∧ List.Forall₂ Pause.Notes noted pauses

/-- Whatever course a run takes, it can be told what happens. -/
theorem exists_recounts
    (course : (evalScript depth script place machine).Course pauses outcome final) :
    ∃ events, Recounts depth script place machine pauses outcome final events := by
  obtain ⟨noted, events, recounted, notes⟩ :=
    noted_course (erasing_evalScript depth script place ⟨trivial, trivial⟩ _ _ ⟨[], rfl⟩) course
  exact ⟨events, noted, recounted, notes⟩

/-- A run settles the table of modules. -/
theorem Recounts.settled
    (recounts : Recounts depth script place machine pauses outcome final events)
    (spared : ∀ pause ∈ pauses, pause.left.SameModules pause.found) :
    Settled machine events final := by
  obtain ⟨noted, course, notes⟩ := recounts
  exact (settling_evalScript depth script place ⟨trivial, trivial⟩).of_notes course notes spared

/-- From the first machine on, runs are completed one after another, and others let the modules
alone in between and while the runs wait. The events of all runs are told. -/
inductive Proceeds (first : Machine Host) : List Event → Machine Host → Prop where
  | start : Proceeds first [] first
  | act {last later : Machine Host} {events : List Event} (before : Proceeds first events last)
    (spared : last.SameModules later) : Proceeds first events later
  | run {last later : Machine Host} {events more : List Event} {depth : Nat} {script : Script}
    {place : Place} {pauses : List (Pause Host)} {outcome : Except Halt Value}
    (before : Proceeds first events last)
    (course : (evalScript depth script place last).Course pauses outcome later)
    (spared : ∀ pause ∈ pauses, pause.left.SameModules pause.found)
    (recounts : Recounts depth script place last pauses outcome later more) :
    Proceeds first (events ++ more) later

/-- Runs one after another settle the table of modules. -/
theorem Proceeds.settled {first last : Machine Host} (proceeds : Proceeds first events last) :
    Settled first events last := by
  induction proceeds with
  | start => exact .of_sameModules (.refl first)
  | @act last later events _ spared ih =>
      rw [← List.append_nil events]
      exact ih.trans (.of_sameModules spared)
  | run _ _ spared recounts ih => exact ih.trans (recounts.settled spared)

/-! ## Imports -/

/-- Whether a load fails or not, what is in the table stays there. -/
theorem kept_loadModule {path : String} {outcome : Except Halt ModuleId}
    (course : (loadModule (evalScript depth) path machine).Course pauses outcome final)
    (spared : ∀ pause ∈ pauses, pause.left.SameModules pause.found) :
    Kept machine final := by
  have alike : Eval.Matches RecordOf _ (Services.recording.load _ path)
      (loadModule (evalScript depth : Evaluator Host) path) :=
    erasing_recording.load (erasing_evalScript depth) path
  obtain ⟨noted, events, recounted, notes⟩ := noted_course (alike _ machine ⟨[], rfl⟩) course
  have settles := (@settling_recording Host).load (settling_evalScript depth) path
  exact (settles.of_notes recounted notes spared).kept

/-- A module that could not be loaded is not registered, whatever its script has imported. -/
theorem loaded?_of_failed {evaluate : Evaluator Host} {path : String} {halt : Halt}
    (absent : machine.loaded? path = none)
    (course : (loadModule evaluate path machine).Course pauses (.error halt) final) :
    final.loaded? path = none := by
  rcases course_loadModule absent course with ⟨_, -, rfl⟩ | ⟨load, -, found⟩
  · exact absent
  rcases found with ⟨_, -, rfl⟩ | ⟨script, ending, stopped, -, found⟩
  · exact absent
  rcases found with ⟨_, -, -, rfl⟩ | ⟨_, -, ended, -⟩
  · rw [loaded?_unregister, if_pos rfl]
  · cases ended

/-- The command that loads the module of a path and binds it to a name. -/
def loading (path : String) (name : Symbol) : Command :=
  .mk ⟨"import", rfl⟩ [.list [.list [.text path, .symbol name]]]

/-- The command is run in a block of its own. -/
theorem evalCommand_loading (evaluate : Evaluator Host) (place : Place) (path : String)
    (name : Symbol) (machine : Machine Host) :
    evalCommand evaluate place (loading path name) machine =
      runLoad evaluate ⟨place, machine.scopes.next⟩ [(path, name)]
        { machine with scopes := machine.scopes.addBlock place.scope } := by
  rw [evalCommand]
  change Run.andThen _ _ = _
  rfl

/-- A module that is in the table is bound to a free name; nothing else happens. -/
theorem runLoad_of_loaded (evaluate : Evaluator Host) (frame : Frame) (machine : Machine Host)
    {path : String} {name : Symbol} {id : ModuleId} (loaded : machine.loaded? path = some id)
    (loader : machine.loader.isSome = true)
    (free : machine.scopes.isFree frame.caller.scope name = true)
    (entries : List (String × Symbol)) :
    runLoad evaluate frame ((path, name) :: entries) machine =
      runLoad evaluate frame entries { machine with
        scopes := machine.scopes.assign frame.caller.scope name (.module id path) } := by
  have found : (loadModule evaluate path).mapError (.moduleLoad path name) machine =
      .ended (.ok id) machine := by
    rw [Eval.mapError, loadModule, loaded]
    rfl
  rw [runLoad_of_loader evaluate frame name path entries loader,
    Eval.bind_of_ended (requireFree_of_isFree free _), Eval.bind_of_ended found,
    Eval.bind_of_ended (bindFresh_of_isFree free _ _)]

/-- A load that fails leaves a path absent that was absent before. It has not been made at all if
the name is taken or there is no loader. -/
theorem runLoad_failed (frame : Frame) (name : Symbol) (machine : Machine Host) {path : String}
    {halt : Halt}
    (exist : frame.caller.scope < machine.scopes.next) (absent : machine.loaded? path = none)
    (course : (runLoad (evalScript depth) frame [(path, name)] machine).Course pauses (.error halt)
      final)
    (spared : ∀ pause ∈ pauses, pause.left.SameModules pause.found)
    (undisturbed : ∀ pause ∈ pauses, pause.LeavesFree frame.caller.scope name) :
    final.loaded? path = none ∧ Kept machine final := by
  have unchanged : final = machine →
      final.loaded? path = none ∧ Kept machine final := by
    rintro rfl
    exact ⟨absent, (Settled.of_sameModules (.refl _)).kept⟩
  cases loader : machine.loader.isSome with
  | false =>
      change ((Eval.require machine.loader.isSome _ machine).andThen _).Course _ _ _ at course
      rw [loader] at course
      cases course
      exact unchanged rfl
  | true =>
      cases free : machine.scopes.isFree frame.caller.scope name with
      | false =>
          rw [runLoad_of_loader _ frame name path [] loader] at course
          change ((Eval.require (machine.scopes.isFree frame.caller.scope name) _ machine).andThen
            _).Course _ _ _ at course
          rw [free] at course
          cases course
          exact unchanged rfl
      | true =>
          have frames : FramesScripts (evalScript depth : Evaluator Host) :=
            framesScripts_evalScript depth
          rcases runLoad_course frames exist free path [] loader course undisturbed with
            ⟨_, -, failed⟩ | ⟨_, _, _, _, -, -, rest⟩
          · rcases failed.of_mapError with ⟨reason, _, -, failed⟩ | ⟨_, ended, -⟩
            · exact ⟨loaded?_of_failed absent failed, kept_loadModule failed spared⟩
            · cases ended
          · cases rest

/-- A block gets a new number. -/
theorem next_addBlock_of_lt {scopes : Scopes Value} {id : ScopeId} (made : id < scopes.next) :
    id < (scopes.addBlock id).next := by
  rw [Scopes.addBlock, Scopes.next_add]
  exact Nat.lt_succ_of_lt made

/-! ## Between runs -/

/-- What becomes of the table of modules when scripts are run one after another, with others that
let the modules alone. -/
structure KeepsModules (Host : Type) : Prop where
  recounted : ∀ depth script place (machine : Machine Host) pauses outcome final,
    (evalScript depth script place machine).Course pauses outcome final →
    ∃ events, Recounts depth script place machine pauses outcome final events
  completed : ∀ settings loader (host : Host) events last,
    Proceeds (.new settings loader host) events last →
    ∃ loads, last.registry = (mainPath, mainModule) :: loads ∧ loads.Perm (completions events) ∧
      (last.registry.map Prod.fst).Nodup
  kept : ∀ (first last : Machine Host) events, Proceeds first events last → Kept first last
  failedLoad : ∀ depth path (machine : Machine Host) pauses halt final,
    machine.loaded? path = none →
    (loadModule (evalScript depth) path machine).Course pauses (.error halt) final →
    (∀ pause ∈ pauses, pause.left.SameModules pause.found) →
    final.loaded? path = none ∧ Kept machine final
  failedCommand : ∀ depth (place : Place) path name (machine : Machine Host) pauses halt final,
    place.scope < machine.scopes.next → machine.loaded? path = none →
    (evalCommand (evalScript depth) place (loading path name) machine).Course pauses (.error halt)
      final →
    (∀ pause ∈ pauses, pause.left.SameModules pause.found ∧ pause.LeavesFree place.scope name) →
    final.loaded? path = none ∧ Kept machine final
  again : ∀ (evaluate : Evaluator Host) frame path name id entries (machine : Machine Host),
    machine.loaded? path = some id → machine.loader.isSome = true →
    machine.scopes.isFree frame.caller.scope name = true →
    runLoad evaluate frame ((path, name) :: entries) machine =
      runLoad evaluate frame entries { machine with
        scopes := machine.scopes.assign frame.caller.scope name (.module id path) }
  againCommand : ∀ (evaluate : Evaluator Host) (place : Place) path name id
    (machine : Machine Host), place.scope < machine.scopes.next → machine.loaded? path = some id →
    machine.loader.isSome = true → machine.scopes.isFree place.scope name = true →
    ∃ scopes, evalCommand evaluate place (loading path name) machine =
        .ended (.ok (.ofBool true)) { machine with scopes := scopes } ∧
      scopes = (machine.scopes.addBlock place.scope).assign place.scope name (.module id path) ∧
      scopes.lookup place.scope name = some (.module id path)

/-- Behind the main module the table holds exactly the modules whose scripts have run to completion,
and it holds them forever. A load that fails leaves no trace in it, and a module that is in it is
not loaded again. -/
theorem evalScript_keepsModules (Host : Type) : KeepsModules Host where
  recounted _ _ _ _ _ _ _ course := exists_recounts course
  completed settings loader host events last proceeds := by
    obtain ⟨loads, grown, completed⟩ := proceeds.settled
    refine ⟨loads, grown.registry, completed, ?_⟩
    have fresh : mainPath ∉ loads.map Prod.fst := fun member => by
      have absent := grown.fresh mainPath member
      cases absent
    rw [grown.registry]
    exact List.nodup_cons.mpr ⟨fresh, grown.distinct⟩
  kept _ _ _ proceeds := proceeds.settled.kept
  failedLoad _ _ _ _ _ _ absent course spared :=
    ⟨loaded?_of_failed absent course, kept_loadModule course spared⟩
  failedCommand depth place path name machine _ _ _ exist absent course others := by
    rw [evalCommand_loading] at course
    have failed := runLoad_failed ⟨place, _⟩ name
      { machine with scopes := machine.scopes.addBlock place.scope } (next_addBlock_of_lt exist)
      absent course (fun pause member => (others pause member).1)
      fun pause member => (others pause member).2
    exact ⟨failed.1, failed.2.loaded, failed.2.defined⟩
  again evaluate frame _ _ _ entries machine loaded loader free :=
    runLoad_of_loaded evaluate frame machine loaded loader free entries
  againCommand evaluate place path name id machine exist loaded loader free := by
    refine ⟨_, ?_, rfl, Scopes.lookup_assign_self _ (next_addBlock_of_lt exist) name _⟩
    rw [← Scopes.isFree_addBlock machine.scopes place.scope] at free
    exact (evalCommand_loading evaluate place path name machine).trans
      (runLoad_of_loaded evaluate ⟨place, _⟩
        { machine with scopes := machine.scopes.addBlock place.scope } loaded loader free [])

end CommandScript.Evaluation
