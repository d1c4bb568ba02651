import CommandScript.Proofs.Evaluation.Watch
import CommandScript.Proofs.Host.Moves
import CommandScript.Proofs.Host.Supply

/-!
# Functions are defined at the top of their modules

Whatever a host does with a fresh machine, every function in the table of a module bears the name
and the path that it is found by there, and it has been defined below the top scope of the module,
outside of functions. If the host makes up no functions, bodies are run below such places only: on
the chain of a scope inside a function there is exactly one scope that was made for a body. No
function is ever defined there.
-/

namespace CommandScript.Host

open CommandScript.Machine CommandScript.Evaluation CommandScript.Source

variable {Host : Type} {keeps : Keeps Host} {trusted : Prop} {machine : Machine Host}

/-! ## Edits -/

/-- The edit adds processes and loaders only that make up nothing, and binds no function but those
that modules hold. -/
structure Edit.Honest (keeps : Keeps Host) (machine : Machine Host) (edit : Edit Host) : Prop where
  laws : HostLaws keeps (edit.apply machine)
  bound : ∀ scope name value, edit = .bind scope name value → machine.Knows value.nodes

/-- A process that is added is bound to its name in the root. -/
theorem sound_extend (sound : machine.Sound keeps trusted) {name : String}
    {process : HostProcess Host} {defined : Machine Host}
    (done : defineProcess machine name process = .ok defined)
    (laws : trusted → HostLaws keeps defined) :
    defined.Sound keeps trusted ∧ machine.Extends defined := by
  obtain ⟨symbol, rfl⟩ := defineProcess_eq done
  have added : (machine.addProcess process).Sound keeps trusted ∧
      machine.Extends (machine.addProcess process) :=
    sound.alter rfl rfl
      (fun trust _ => ⟨(laws trust).yields, (laws trust).retains, (laws trust).loads⟩)
      fun trust => (sound.supplied trust).kept
  have plain (scope : ScopeId) :
      .scope scope ∉ (Value.process machine.nextProcess process.name).nodes := by
    rintro ⟨⟩
  obtain ⟨bound, further⟩ := added.1.assign rootScope symbol (admits_of_nodes plain)
  exact ⟨bound, added.2.trans further⟩

/-- A channel may be opened on a sound machine. -/
theorem sound_address (sound : machine.Sound keeps trusted) {scope id : String}
    {opened : Machine Host × MailboxId} (done : openChannel machine scope id = .ok opened) :
    opened.1.Sound keeps trusted ∧ machine.Extends opened.1 := by
  obtain ⟨mailboxes, channels, eq⟩ := openChannel_eq done
  rw [eq]
  exact sound.alter rfl rfl (fun _ laws => ⟨laws.yields, laws.retains, laws.loads⟩)
    fun trust => (sound.supplied trust).kept

/-- An honest edit leaves a sound machine sound, and any edit does as far as the host need not be
trusted. -/
theorem sound_edit (sound : machine.Sound keeps trusted) (edit : Edit Host)
    (honest : trusted → edit.Honest keeps machine) :
    (edit.apply machine).Sound keeps trusted ∧ machine.Extends (edit.apply machine) := by
  have laws : trusted → HostLaws keeps (edit.apply machine) := fun trust => (honest trust).laws
  have kept : trusted → ∀ id, machine.Knows (keeps id machine.host) :=
    fun trust => (sound.supplied trust).kept
  cases edit with
  | take mailbox => exact sound.onlyMailboxes (onlyMailboxes_takeNow machine mailbox)
  | push mailbox value =>
      have pushed := machine.onlyMailboxes_push mailbox value none
      exact sound.onlyMailboxes (onlyMailboxes_orWithdraw mailbox machine pushed)
  | close mailbox => exact sound.onlyMailboxes (onlyMailboxes_closeMailbox machine mailbox)
  | closeAll => exact sound.onlyMailboxes (onlyMailboxes_closeAll machine.channels machine)
  | cancel => exact sound.alter rfl rfl (fun trust _ => laws trust) kept
  | address scope id =>
      rw [Edit.apply]
      split
      · rename_i opened done
        exact sound_address sound done
      · exact ⟨sound, .refl machine⟩
  | bind scope name value =>
      exact sound.assign scope name fun trust => (honest trust).bound scope name value rfl
  | extend name process =>
      rw [Edit.apply] at laws ⊢
      split at laws
      · rename_i defined done
        exact sound_extend sound done laws
      · exact ⟨sound, .refl machine⟩
  | loadWith load => exact sound.alter rfl rfl (fun trust _ => laws trust) kept

/-! ## Moves -/

/-- All edits among the moves are honest when their time comes. -/
def HonestMoves (keeps : Keeps Host) (evaluate : Evaluator Host) :
    Session Host → List (Move Host) → Prop
  | _, [] => True
  | session, move :: rest =>
    (∀ edit, move = .change edit → edit.Honest keeps session.machine) ∧
      HonestMoves keeps evaluate (move.play evaluate session).1 rest

/-- The host makes up no functions: neither do its processes and its loader, nor does it bind any in
a scope. At first it keeps none. -/
structure HonestHost (keeps : Keeps Host) (evaluate : Evaluator Host) (session : Session Host)
    (moves : List (Move Host)) : Prop where
  laws : HostLaws keeps session.machine
  kept : ∀ id scope, .scope scope ∉ keeps id session.machine.host
  moves : HonestMoves keeps evaluate session moves

variable {evaluate other : Evaluator Host}

/-- Scripts that stand on sound machines are launched alike. -/
theorem launch_stands (scripts : ScriptsStand keeps trusted evaluate other) (script : Script)
    (start : Machine Host) :
    GoesOnAlike (ground keeps trusted) start (launch evaluate script) (launch other script) := by
  intro machine sound later
  have here := sound.rooted.coheres_main
  exact (scripts script ⟨_, mainModule⟩ machine here machine sound (.refl machine)).weaken
    fun _ _ _ => trivial

/-- By induction on the moves: after every move the machine is sound, and evaluators that stand
together cannot be told apart. -/
theorem play_sound (scripts : ScriptsStand keeps trusted evaluate other)
    {session rival : Session Host} (alike : SessionsAlike (ground keeps trusted) session rival)
    (moves : List (Move Host)) (honest : trusted → HonestMoves keeps other rival moves) :
    play evaluate session moves = play other rival moves ∧
      ∀ seen ∈ play other rival moves, seen.1.Sound keeps trusted := by
  induction moves generalizing session rival with
  | nil => exact ⟨rfl, nofun⟩
  | cons move rest ih =>
      have edits : ∀ edit, move = .change edit →
          (edit.apply session.machine).Sound keeps trusted ∧
            session.machine.Extends (edit.apply session.machine) := by
        intro edit changed
        apply sound_edit alike.ready edit
        rw [alike.machine]
        exact fun trust => (honest trust).1 edit changed
      obtain ⟨after, seen⟩ :=
        move.play_alike alike (fun script => launch_stands scripts script _) edits
      obtain ⟨same, sound⟩ := ih after fun trust => (honest trust).2
      rw [play, play]
      dsimp only
      rw [after.machine, seen, same]
      refine ⟨rfl, List.forall_mem_cons.mpr ⟨?_, sound⟩⟩
      exact after.machine ▸ after.ready

/-! ## In the course of runs -/

/-- What a watch looks for is there after every move, and wherever it looks while runs go on:
whatever would be done if it were missing, a host sees the same, on the same machines. -/
structure Throughout (depth : Nat) (session : Session Host) (moves : List (Move Host))
    (watch : Watch Host) : Prop where
  rests : ∀ seen ∈ play (evalScript depth) session moves, watch.command seen.1
  between : ∀ stray, play (evalScriptWatched watch stray depth) session moves =
    play (evalScript depth) session moves

/-- On a fresh machine, and as long as those edits are honest that have to be, a watch that is sure
finds what it looks for. -/
theorem throughout_of_sure {watch : Watch Host} (sure : watch.Sure keeps trusted)
    {settings : Settings} {loader : Option (Loader Host)} {host : Host} {depth : Nat}
    {moves : List (Move Host)}
    (honest : trusted →
      HonestHost keeps (evalScript depth) (freshSession settings loader host) moves) :
    Throughout depth (freshSession settings loader host) moves watch := by
  have sound : (Machine.new settings loader host).Sound keeps trusted :=
    sound_new (fun trust => (honest trust).laws) fun trust => (honest trust).kept
  have played (stray : Evaluator Host) := play_sound (sure.scriptsStand stray depth)
    (sessionsAlike_start sound) moves fun trust => (honest trust).moves
  refine ⟨fun seen member => ?_, fun stray => (played stray).1⟩
  exact sure.command ((played (evalScript depth)).2 seen member)

/-! ## Definitions -/

/-- The form of a definition of a function. -/
theorem eq_function_of_ofArguments? {args : List Argument} {form : Form}
    (found : Form.ofArguments? .function args = some form) :
    ∃ name params body, form = .function name params body := by
  rw [Form.ofArguments?.eq_def] at found
  split at found
  case h_6 =>
    cases found
    exact ⟨_, _, _, rfl⟩
  all_goals contradiction

/-- A definition inside a function fails. All it leaves behind is the block of the command. -/
theorem evalCommand_function_inside (evaluate : Evaluator Host) {place : Place} {command : Command}
    (head : command.head.text = Builtin.function.name)
    (inside : machine.scopes.insideFunction place.scope = true) :
    ∃ error, evalCommand evaluate place command machine =
      .ended (.error (.failed error))
        { machine with scopes := machine.scopes.addBlock place.scope } := by
  let entered : Machine Host := { machine with scopes := machine.scopes.addBlock place.scope }
  let frame : Frame := ⟨place, machine.scopes.next⟩
  have named : evalCommand evaluate place command machine =
      runBuiltin evaluate frame .function command.args entered := by
    rw [evalCommand, head, Builtin.ofName?_name]
    rfl
  have within : entered.scopes.insideFunction frame.caller.scope = true :=
    ((Scopes.extends_add ..).insideFunction (Scopes.lt_next_of_insideFunction inside)).trans inside
  rw [named, runBuiltin]
  cases form : Form.ofArguments? .function command.args with
  | none => exact ⟨_, rfl⟩
  | some form =>
      obtain ⟨name, params, body, rfl⟩ := eq_function_of_ofArguments? form
      refine ⟨.nestedFunction name, ?_⟩
      change runFunction frame name params body entered = _
      rw [runFunction_apply, within]
      rfl

/-! ## Functions at the top of their modules -/

/-- Where functions are defined and run when a host plays moves. -/
structure FunctionsRooted (keeps : Keeps Host) (depth : Nat) (session : Session Host)
    (moves : List (Move Host)) : Prop where
  /-- The tables of all modules are in order at all times, whatever the host does. -/
  tables : Throughout depth session moves ⟨Machine.Rooted, fun _ _ => True⟩
  /-- If the host makes up no functions, there is exactly one body around what lies inside of
  functions, and every scope that is made for a body is known for one. -/
  bodies : HonestHost keeps (evalScript depth) session moves →
    Throughout depth session moves
      ⟨fun machine => machine.scopes.OneBody, fun machine scope => machine.scopes.IsBody scope⟩
  /-- No block is taken for a body. -/
  blocks : ∀ (scopes : Scopes Value) parent, parent < scopes.next →
    ¬(scopes.addBlock parent).IsBody scopes.next
  /-- Inside a function nothing is defined. -/
  refused : ∀ (evaluate : Evaluator Host) (place : Place) (command : Command)
    (machine : Machine Host), command.head.text = Builtin.function.name →
    machine.scopes.insideFunction place.scope = true →
    ∃ error, evalCommand evaluate place command machine =
      .ended (.error (.failed error)) { machine with scopes := machine.scopes.addBlock place.scope }

/-- Whatever moves a host plays, functions are defined at the top of their modules and each of their
bodies runs right below the scope that its function closes over. -/
theorem play_functionsRooted (settings : Settings) (loader : Option (Loader Host)) (host : Host)
    (keeps : Keeps Host) (depth : Nat) (moves : List (Move Host)) :
    FunctionsRooted keeps depth (freshSession settings loader host) moves where
  tables := by
    have sure : Watch.Sure ⟨Machine.Rooted, fun _ _ => True⟩ keeps False :=
      ⟨fun sound => sound.rooted, fun _ _ => trivial⟩
    exact throughout_of_sure sure False.elim
  bodies honest := by
    have sure : Watch.Sure ⟨fun machine => machine.scopes.OneBody,
        fun machine scope => machine.scopes.IsBody scope⟩ keeps True :=
      ⟨fun sound => sound.rooted.scopes.oneBody (sound.supplied trivial).ordered,
        fun _ body => body trivial⟩
    exact throughout_of_sure sure fun _ => honest
  blocks _ _ made := Scopes.not_isBody_addBlock made
  refused evaluate _ _ _ head inside := evalCommand_function_inside evaluate head inside

/-! ## A host with a cell -/

section Cell

/-- All processes are standard ones. -/
def AllStandard (machine : Machine Cell) : Prop :=
  ∀ process ∈ machine.processes, ∃ name, process? name = some process

/-- A host that adds standard processes makes up nothing. -/
theorem honest_extend {machine : Machine Cell} (standard : AllStandard machine)
    (unloaded : machine.loader = none) {name : String} {process : HostProcess Cell}
    (known : process? name = some process) :
    (Edit.extend name process).Honest cellKeeps machine ∧
      AllStandard ((Edit.extend name process).apply machine) ∧
      ((Edit.extend name process).apply machine).loader = none := by
  have extended : AllStandard ((Edit.extend name process).apply machine) ∧
      ((Edit.extend name process).apply machine).loader = none := by
    rw [Edit.apply]
    split
    · rename_i done
      obtain ⟨symbol, rfl⟩ := defineProcess_eq done
      refine ⟨fun other member => ?_, unloaded⟩
      rcases Array.mem_push.mp member with old | rfl
      · exact standard other old
      · exact ⟨name, known⟩
    · exact ⟨standard, unloaded⟩
  refine ⟨⟨hostLaws_of_standard extended.1 ?_, ?_⟩, extended⟩
  · intro load present
    rw [extended.2] at present
    cases present
  · intro scope name value same
    cases same

/-- A script that defines a function and calls it below a block. -/
def cellScript : Script :=
  (Script.parse "stash hello; func again [] { do { fetch } }; do { again }").toOption.getD []

/-- The host adds a process that fills the cell and one that reads it, and runs a script. -/
def cellMoves : List (Move Cell) :=
  (["stash", "fetch"].filterMap fun name => (process? name).map (Move.change ∘ Edit.extend name)) ++
    [.run cellScript]

/-- The moves of the session: two processes are added and a script is run. -/
theorem cellMoves_eq : ∃ stash fetch, process? "stash" = some stash ∧
    process? "fetch" = some fetch ∧
    cellMoves = [.change (.extend "stash" stash), .change (.extend "fetch" fetch),
      .run cellScript] :=
  ⟨_, _, rfl, rfl, rfl⟩

/-- The host of the session makes up no functions. -/
theorem honestHost_cell (depth : Nat) :
    HonestHost cellKeeps (evalScript depth) (freshSession Settings.default none .nothing)
      cellMoves := by
  have fresh : AllStandard (Machine.new Settings.default none .nothing) := nofun
  obtain ⟨stash, fetch, stashes, fetches, moves⟩ := cellMoves_eq
  obtain ⟨first, standard, unloaded⟩ := honest_extend fresh rfl stashes
  obtain ⟨second, -⟩ := honest_extend standard unloaded fetches
  refine ⟨hostLaws_of_standard fresh nofun, fun _ scope => Set.notMem_empty _, ?_⟩
  rw [moves]
  refine ⟨?_, ?_, nofun, trivial⟩
  · rintro edit ⟨⟩
    exact first
  · rintro edit ⟨⟩
    exact second

/-- The session with a cell meets what is asked of the host. -/
theorem play_functionsRooted_cell :
    HonestHost cellKeeps (evalScript 9) (freshSession Settings.default none .nothing) cellMoves ∧
      FunctionsRooted cellKeeps 9 (freshSession Settings.default none .nothing) cellMoves :=
  ⟨honestHost_cell 9, play_functionsRooted Settings.default none .nothing cellKeeps 9 cellMoves⟩

/-- The function is in the table of the main module, and its body has been run. -/
example :
    (play (evalScript 9) (freshSession Settings.default none .nothing) cellMoves).map
        (fun seen => (seen.1.modules.toList.map fun module => module.functions.length,
          (List.range seen.1.scopes.next).filter seen.1.scopes.insideFunction)) =
      [([0], []), ([0], []), ([1], [7, 8, 9, 10])] := by
  decide +kernel

end Cell

end CommandScript.Host
