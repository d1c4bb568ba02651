import CommandScript.Proofs.Evaluation.Likeness
import CommandScript.Proofs.Host.Likeness

/-!
# The moves of a host

A host moves by running scripts, by asking for a run that waits, by reading what was printed, and by
changing what is not a matter of modules: mailboxes, names, processes, the loader. It sees how each
move ends. Moves are played with any evaluator of scripts.
-/

namespace CommandScript.Host

open CommandScript.Machine CommandScript.Evaluation CommandScript.Source

variable {Host : Type}

/-! ## Edits -/

/-- What a host changes without running anything. -/
inductive Edit (Host : Type) where
  | take (mailbox : MailboxId)
  | push (mailbox : MailboxId) (value : Value)
  | close (mailbox : MailboxId)
  | closeAll
  | cancel
  | address (scope id : String)
  | bind (scope : ScopeId) (name : Symbol) (value : Value)
  | extend (name : String) (process : HostProcess Host)
  | loadWith (load : Loader Host)

/-- The machine after an edit. One that fails changes nothing. -/
def Edit.apply (machine : Machine Host) : Edit Host → Machine Host
  | .take mailbox => (takeNow machine mailbox).1
  | .push mailbox value => (pushNow machine mailbox value).1
  | .close mailbox => closeMailbox machine mailbox
  | .closeAll => shutdown machine
  | .cancel => cancelPrinting machine
  | .address scope id =>
    match openChannel machine scope id with
    | .ok (opened, _) => opened
    | .error _ => machine
  | .bind scope name value => setName machine scope name value
  | .extend name process =>
    match defineProcess machine name process with
    | .ok defined => defined
    | .error _ => machine
  | .loadWith load => { machine with loader := some load }

/-- To close a mailbox changes no more than mailboxes. -/
theorem onlyMailboxes_closeMailbox (machine : Machine Host) (id : MailboxId) :
    machine.OnlyMailboxes (closeMailbox machine id) := by
  rw [closeMailbox]
  cases machine.mailboxes[id]? with
  | none => exact .refl machine
  | some mailbox =>
      exact (machine.onlyMailboxes_withMailbox id _).trans (onlyMailboxes_serve _ id)

/-- To close all channels changes no more than mailboxes. -/
theorem onlyMailboxes_closeAll (channels : List (Mailbox.ChannelName × MailboxId))
    (machine : Machine Host) :
    machine.OnlyMailboxes
      (channels.foldl (fun machine channel => closeMailbox machine channel.2) machine) := by
  induction channels generalizing machine with
  | nil => exact .refl machine
  | cons channel rest ih => exact (onlyMailboxes_closeMailbox machine channel.2).trans (ih _)

/-- A channel that is opened adds a mailbox and a name for it; the rest stays. -/
theorem openChannel_eq {machine opened : Machine Host} {scope id : String} {mailbox : MailboxId}
    (done : openChannel machine scope id = .ok (opened, mailbox)) :
    ∃ mailboxes channels,
      opened = { machine with mailboxes := mailboxes, channels := channels } := by
  rw [openChannel] at done
  split at done
  · cases done
  · split at done
    · cases done
    · split at done
      · cases done
        exact ⟨_, _, rfl⟩
      · cases done
        exact ⟨_, _, rfl⟩

/-- A process that is defined is added and bound in the root scope; the rest stays. -/
theorem defineProcess_eq {machine defined : Machine Host} {name : String}
    {process : HostProcess Host} (done : defineProcess machine name process = .ok defined) :
    ∃ symbol, defined = { machine.addProcess process with
      scopes := machine.scopes.assign rootScope symbol
        (.process machine.nextProcess process.name) } := by
  rw [defineProcess] at done
  split at done
  · cases done
  · rename_i symbol _
    rw [Scopes.bind?] at done
    split at done
    · cases done
    · rename_i bound
      split at bound
      · cases bound
        cases done
        exact ⟨symbol, rfl⟩
      · cases bound

/-- No change that a host makes has to do with modules. -/
theorem Edit.sameModules (machine : Machine Host) (edit : Edit Host) :
    machine.SameModules (edit.apply machine) := by
  cases edit with
  | take mailbox => exact (onlyMailboxes_takeNow machine mailbox).sameModules
  | push mailbox value =>
      have pushed := machine.onlyMailboxes_push mailbox value none
      exact (onlyMailboxes_orWithdraw mailbox machine pushed).sameModules
  | close mailbox => exact (onlyMailboxes_closeMailbox machine mailbox).sameModules
  | closeAll => exact (onlyMailboxes_closeAll machine.channels machine).sameModules
  | cancel => exact ⟨rfl, rfl, rfl⟩
  | address scope id =>
      rw [Edit.apply]
      split
      · rename_i done
        obtain ⟨mailboxes, channels, rfl⟩ := openChannel_eq done
        exact ⟨rfl, rfl, rfl⟩
      · exact .refl machine
  | bind scope name value => exact ⟨rfl, rfl, rfl⟩
  | extend name process =>
      rw [Edit.apply]
      split
      · rename_i done
        obtain ⟨symbol, rfl⟩ := defineProcess_eq done
        exact ⟨rfl, rfl, rfl⟩
      · exact .refl machine
  | loadWith load => exact ⟨rfl, rfl, rfl⟩

/-! ## Moves -/

/-- What a host does in a session. -/
inductive Move (Host : Type) where
  | run (script : Script)
  | begin (script : Script)
  | resume
  | drain (mailbox : MailboxId)
  | change (edit : Edit Host)

/-- What a host sees of a move. -/
inductive Sight where
  | ran (output : Output) (ending : Ending)
  | begun (ending : Ending)
  | resumed (ending : Option Ending)
  | drained (values : List Value)
  | changed

/-- The run of a script in the main module. -/
def launch (evaluate : Evaluator Host) (script : Script) : Eval Host Value :=
  fun machine => evaluate script ⟨machine.moduleScope mainModule, mainModule⟩ machine

/-- A script is launched as a machine runs it. -/
theorem launch_evalScript (script : Script) (machine : Machine Host) :
    launch (evalScript nestingLimit) script machine = runScript machine script :=
  rfl

/-- A session that begins with a fresh machine. -/
def freshSession (settings : Settings) (loader : Option (Loader Host)) (host : Host) :
    Session Host :=
  .start (.new settings loader host)

/-- The session after a move, and what the host sees of it. -/
def Move.play (evaluate : Evaluator Host) (session : Session Host) :
    Move Host → Session Host × Sight
  | .run script =>
    let (after, output, ending) := session.run (launch evaluate script)
    (after, .ran output ending)
  | .begin script =>
    let (after, ending) := session.begin (launch evaluate script)
    (after, .begun ending)
  | .resume =>
    let (after, ending) := session.resume
    (after, .resumed ending)
  | .drain mailbox =>
    let (after, values) := session.drain mailbox
    (after, .drained values)
  | .change edit => (session.withMachine (edit.apply session.machine), .changed)

/-- The machine after each move, with what the host sees of it. -/
def play (evaluate : Evaluator Host) (session : Session Host) :
    List (Move Host) → List (Machine Host × Sight)
  | [] => []
  | move :: rest =>
    let (after, sight) := move.play evaluate session
    (after.machine, sight) :: play evaluate after rest

variable {evaluate other : Evaluator Host} {session rival : Session Host}

/-- A move keeps two sessions alike, and looks the same in both, if scripts and edits keep to the
footing. -/
theorem Move.play_alike {footing : Footing Host} (alike : SessionsAlike footing session rival)
    (launches : ∀ script,
      GoesOnAlike footing session.machine (launch evaluate script) (launch other script))
    (move : Move Host)
    (edits : ∀ edit, move = .change edit → footing.holds (edit.apply session.machine) ∧
      footing.later session.machine (edit.apply session.machine)) :
    SessionsAlike footing (move.play evaluate session).1 (move.play other rival).1 ∧
      (move.play evaluate session).2 = (move.play other rival).2 := by
  cases move with
  | run script =>
      obtain ⟨after, seen⟩ := alike.run (launches script)
      exact ⟨after, congrArg (fun seen : Output × Ending => Sight.ran seen.1 seen.2) seen⟩
  | begin script =>
      obtain ⟨after, seen⟩ := alike.begin (launches script)
      exact ⟨after, congrArg Sight.begun seen⟩
  | resume =>
      obtain ⟨after, seen⟩ := alike.resume
      exact ⟨after, congrArg Sight.resumed seen⟩
  | drain mailbox =>
      obtain ⟨after, seen⟩ := alike.drain mailbox
      exact ⟨after, congrArg Sight.drained seen⟩
  | change edit =>
      rw [Move.play, Move.play, ← alike.machine]
      obtain ⟨edited, later⟩ := edits edit rfl
      exact ⟨alike.withMachine edited later, rfl⟩

/-- Evaluators that are alike launch a script alike. -/
theorem launch_alike {holds : Machine Host → Prop} (likeness : Likeness holds evaluate other)
    (script : Script) : (launch evaluate script).Alike holds (launch other script) :=
  fun machine ready => likeness.scripts script _ machine ready

/-- By induction on the moves: the sessions stay alike. -/
theorem play_alike {holds : Machine Host → Prop} (likeness : Likeness holds evaluate other)
    (alike : SessionsAlike (.of likeness.upheld) session rival) (moves : List (Move Host)) :
    play evaluate session moves = play other rival moves := by
  induction moves generalizing session rival with
  | nil => rfl
  | cons move rest ih =>
      obtain ⟨after, seen⟩ := move.play_alike alike
        (fun script => (launch_alike likeness script).stands likeness.upheld _)
        fun edit _ => ⟨likeness.upheld.same alike.ready (edit.sameModules session.machine), trivial⟩
      rw [play, play]
      dsimp only
      rw [after.machine, seen, ih after]

end CommandScript.Host
