import CommandScript.Host.Session
import CommandScript.Proofs.Evaluation.Footing
import Mathlib.Data.List.Forall2

/-!
# Sessions that cannot be told apart

A host that plays the same moves with two evaluators that stand together sees the same and has the
same machine after every move. The runs that wait in the two sessions differ, but go on alike, on
whatever machine comes later.
-/

namespace CommandScript.Host

open CommandScript.Machine CommandScript.Evaluation CommandScript.Source

variable {Host : Type} {footing : Footing Host} {start machine : Machine Host}

/-! ## Runs in the background -/

/-- What is left of two runs goes on alike. -/
abbrev GoesOnAlike (footing : Footing Host) (start : Machine Host) :
    Eval Host Value → Eval Host Value → Prop :=
  Eval.Stands footing (fun _ _ => True) start

/-- Runs that wait in two sessions, each like its counterpart. -/
abbrev RunsAlike (footing : Footing Host) (start : Machine Host) :
    List (Eval Host Value) → List (Eval Host Value) → Prop :=
  List.Forall₂ (GoesOnAlike footing start)

theorem RunsAlike.onward {runs others : List (Eval Host Value)}
    (alike : RunsAlike footing start runs others) (later : footing.later start machine) :
    RunsAlike footing machine runs others :=
  alike.imp fun _ _ first => first.onward later

/-- Runs that stand together go on together. -/
theorem goOn_alike {run other : Run Host Value}
    (alike : run.Stands footing (fun _ _ => True) start other) :
    run.goOn.Stands footing (fun _ _ => True) start other.goOn := by
  induction alike with
  | ended kept reached good => exact .ended kept reached good
  | @waiting start machine mailbox pending resume rest kept reached taken ih =>
      obtain ⟨still, more⟩ := footing.request kept (machine.onlyMailboxes_poll mailbox pending)
      rw [Run.goOn, Run.goOn]
      generalize machine.poll mailbox pending = answered at still more ⊢
      obtain ⟨polled, _ | outcome⟩ := answered
      · refine .waiting still (footing.trans reached more) fun answer found held later => ?_
        exact taken answer found held (footing.trans more later)
      · exact (ih outcome polled still more).after (footing.trans reached more)

/-- The machine that both sessions have come to, and what is left of their runs. -/
structure WentOnAlike (footing : Footing Host) (start : Machine Host)
    (reached other : Machine Host × List (Eval Host Value)) : Prop where
  machine : reached.1 = other.1
  kept : footing.holds reached.1
  later : footing.later start reached.1
  runs : RunsAlike footing reached.1 reached.2 other.2

/-- Runs that go on in both sessions leave the same machine and wait alike again. -/
theorem goOnAll_alike {runs others : List (Eval Host Value)}
    (alike : RunsAlike footing machine runs others) (ready : footing.holds machine) :
    WentOnAlike footing machine (goOnAll machine runs) (goOnAll machine others) := by
  induction alike with
  | nil => exact ⟨rfl, ready, footing.refl machine, .nil⟩
  | @cons run other runs others first rest ih =>
      obtain ⟨same, kept, later, waiting⟩ := ih
      have gone := goOn_alike (first _ kept later)
      rw [goOnAll, goOnAll]
      dsimp only
      rw [← same]
      exact ⟨gone.machine_eq, gone.holds_machine, footing.trans later gone.later_machine,
        .cons gone.rest (waiting.onward gone.later_machine)⟩

/-! ## Readings -/

/-- Two readings differ in the runs in the background only, and those are alike. -/
structure ReadingsAlike (footing : Footing Host) (start : Machine Host)
    (reading other : Reading Host) : Prop where
  runs : RunsAlike footing start reading.runs other.runs
  ahead : reading.ahead = other.ahead
  taken : reading.taken = other.taken

/-- Two readers have come to the same machine with readings that are alike. -/
structure ReachAlike (footing : Footing Host) (start : Machine Host)
    (reached other : Machine Host × Reading Host) : Prop where
  machine : reached.1 = other.1
  kept : footing.holds reached.1
  later : footing.later start reached.1
  reading : ReadingsAlike footing reached.1 reached.2 other.2

/-- A reader comes to the same machine from readings that are alike. -/
def ReadsAlike (footing : Footing Host) (read : Reader Host) : Prop :=
  ∀ watched machine reading other, footing.holds machine →
    ReadingsAlike footing machine reading other →
    ReachAlike footing machine (read watched machine reading) (read watched machine other)

section Readers

variable {reading other : Reading Host}

theorem ReadingsAlike.onward (alike : ReadingsAlike footing start reading other)
    (later : footing.later start machine) : ReadingsAlike footing machine reading other :=
  ⟨alike.runs.onward later, alike.ahead, alike.taken⟩

/-- A value that is read is added to both readings. -/
theorem ReadingsAlike.add (alike : ReadingsAlike footing start reading other) (id : MailboxId)
    (value : Value) : ReadingsAlike footing start (reading.add id value) (other.add id value) :=
  ⟨alike.runs, alike.ahead, congrArg (Array.push · (id, value)) alike.taken⟩

theorem ReadingsAlike.withAhead (alike : ReadingsAlike footing start reading other)
    (ahead : List MailboxId) :
    ReadingsAlike footing start (reading.withAhead ahead) (other.withAhead ahead) :=
  ⟨alike.runs, rfl, alike.taken⟩

/-- One more run may wait in both readings. -/
theorem ReadingsAlike.withRun (alike : ReadingsAlike footing start reading other)
    {run rival : Eval Host Value} (first : GoesOnAlike footing start run rival) :
    ReadingsAlike footing start (reading.withRun run) (other.withRun rival) :=
  ⟨.cons first alike.runs, alike.ahead, alike.taken⟩

/-- Readings that are alike have read the same values. -/
theorem ReadingsAlike.values (alike : ReadingsAlike footing start reading other)
    (id : MailboxId) : reading.values id = other.values id := by
  rw [Reading.values, Reading.values, alike.taken]

/-- What was read before counts as part of the reading. -/
theorem ReachAlike.after {reached reached' : Machine Host × Reading Host}
    (alike : ReachAlike footing machine reached reached') (before : footing.later start machine) :
    ReachAlike footing start reached reached' :=
  ⟨alike.machine, alike.kept, footing.trans before alike.later, alike.reading⟩

/-- To withdraw a request changes mailboxes only. -/
theorem onlyMailboxes_orWithdraw (id : MailboxId) (machine : Machine Host)
    {progress : Machine Host × Progress} (only : machine.OnlyMailboxes progress.1) :
    machine.OnlyMailboxes (orWithdraw id progress).1 := by
  obtain ⟨after, outcome | pending⟩ := progress
  · exact only
  · exact only.trans (after.onlyMailboxes_abandon id pending.id)

/-- A take that does not wait changes mailboxes only. -/
theorem onlyMailboxes_takeNow (machine : Machine Host) (id : MailboxId) :
    machine.OnlyMailboxes (takeNow machine id).1 :=
  onlyMailboxes_orWithdraw id machine (machine.onlyMailboxes_take id)

/-- To take from one mailbox reads alike. -/
theorem takeFrom_alike (id : MailboxId) (count : Nat) :
    ReadsAlike footing (takeFrom id count : Reader Host) := by
  intro watched machine reading other ready alike
  induction count generalizing machine reading other with
  | zero => exact ⟨rfl, ready, footing.refl machine, alike⟩
  | succ count ih =>
      rw [takeFrom]
      dsimp only
      split
      · exact ⟨rfl, ready, footing.refl machine, alike⟩
      · obtain ⟨kept, later⟩ := footing.request ready (onlyMailboxes_takeNow machine id)
        generalize takeNow machine id = result at kept later ⊢
        obtain ⟨after, outcome⟩ := result
        have onward := alike.onward later
        dsimp only
        cases takenValue? outcome with
        | none => exact ⟨rfl, kept, later, onward⟩
        | some value => exact (ih after _ _ kept (onward.add id value)).after later

/-- To go through the mailboxes in a round reads alike. -/
theorem goThrough_alike (mailboxes : List MailboxId) :
    ReadsAlike footing (goThrough mailboxes : Reader Host) := by
  intro watched machine reading other ready alike
  induction mailboxes generalizing machine reading other with
  | nil => exact ⟨rfl, ready, footing.refl machine, alike.withAhead []⟩
  | cons id rest ih =>
      obtain ⟨same, kept, later, read⟩ :=
        takeFrom_alike id (held machine id) watched machine reading other ready alike
      rw [goThrough]
      dsimp only
      rw [← same]
      split
      · exact ⟨rfl, kept, later, read.withAhead (id :: rest)⟩
      · exact (ih _ _ _ kept read).after later

/-- To read while no run can go on reads alike. -/
theorem readAlone_alike (round : List MailboxId) :
    ReadsAlike footing (readAlone round : Reader Host) := by
  intro watched machine reading other ready alike
  obtain ⟨same, kept, later, read⟩ :=
    goThrough_alike reading.ahead watched machine reading other ready alike
  rw [readAlone, readAlone, ← alike.ahead]
  dsimp only
  rw [← same, ← read.ahead]
  split
  · exact (goThrough_alike round watched _ _ _ kept read).after later
  · exact ⟨rfl, kept, later, read⟩

/-- By induction on the two runs that are attended, as `attend` recurses on one. -/
theorem attend_alike {read : Reader Host} (reads : ReadsAlike footing read)
    (watched : List Request) {run rival : Run Host Value}
    (runs : run.Stands footing (fun _ _ => True) start rival)
    (alike : ReadingsAlike footing start reading other) :
    ReachAlike footing start (attend read watched run reading)
      (attend read watched rival other) := by
  induction runs generalizing reading other with
  | @ended start machine outcome kept reached =>
      obtain ⟨same, still, later, come⟩ :=
        reads watched machine reading other kept (alike.onward reached)
      rw [attend, attend]
      refine ⟨same, still, footing.trans reached later, come.withRun ?_⟩
      exact fun machine ready _ => .ended ready (footing.refl machine) fun _ _ => trivial
  | @waiting start machine mailbox pending resume rest kept reached taken ih =>
      have along := alike.onward reached
      obtain ⟨same, still, later, come⟩ :=
        reads (⟨mailbox, pending⟩ :: watched) machine reading other kept along
      -- whatever comes after the reading comes after the machine that the run was left on
      have waits {middle : Machine Host} (past : footing.later machine middle) :
          GoesOnAlike footing middle (fun machine => .waiting mailbox pending machine resume)
            fun machine => .waiting mailbox pending machine rest :=
        fun machine ready on => .waiting ready (footing.refl machine)
          fun answer found held more =>
            taken answer found held (footing.trans past (footing.trans on more))
      rw [attend, attend]
      dsimp only
      rw [← same]
      split
      · exact ⟨rfl, still, footing.trans reached later, come.withRun (waits later)⟩
      · obtain ⟨asked, more⟩ := footing.request still (onlyMailboxes_poll _ mailbox pending)
        generalize (read (⟨mailbox, pending⟩ :: watched) machine reading).1.poll mailbox
          pending = answered at asked more ⊢
        obtain ⟨after, _ | outcome⟩ := answered
        · have past := footing.trans later more
          exact ⟨rfl, asked, footing.trans reached past,
            (come.onward more).withRun (waits past)⟩
        · have past := footing.trans later more
          exact (ih outcome after asked past (come.onward more)).after
            (footing.trans reached past)

/-- To attend to all runs that wait reads alike if the reader in between does. -/
theorem attendAll_alike {read : Reader Host} (reads : ReadsAlike footing read) (count : Nat) :
    ReadsAlike footing (attendAll read count) := by
  induction count with
  | zero => exact reads
  | succ count ih =>
      intro watched machine reading other ready alike
      obtain ⟨runs, ahead, taken⟩ := reading
      obtain ⟨others, ahead', taken'⟩ := other
      rw [attendAll]
      cases alike.runs with
      | nil => exact reads watched machine _ _ ready alike
      | cons first rest =>
          exact attend_alike ih watched (first machine ready (footing.refl machine))
            ⟨rest, alike.ahead, alike.taken⟩

/-- To read on until nothing is left reads alike. -/
theorem readOn_alike (round : List MailboxId) :
    ReadsAlike footing (readOn round : Reader Host) := by
  intro watched machine reading other ready alike
  rw [readOn, readOn, ← alike.runs.length_eq]
  exact attendAll_alike (readAlone_alike round) _ watched machine reading other ready alike

/-- What is left in the mailboxes is read alike. -/
theorem readRest_alike (mailboxes : List MailboxId) (ready : footing.holds machine)
    (alike : ReadingsAlike footing machine reading other) :
    ReachAlike footing machine (readRest mailboxes machine reading)
      (readRest mailboxes machine other) := by
  rw [readRest, readRest, ← alike.ahead]
  exact readOn_alike [] [] machine _ _ ready (alike.withAhead _)

end Readers

/-! ## Runs brought to their ends -/

/-- Two runs have come to the same end, with readings that are alike. -/
structure FinishedAlike (footing : Footing Host) (start : Machine Host)
    (finished other : Finished Host) : Prop where
  machine : finished.machine = other.machine
  kept : footing.holds finished.machine
  later : footing.later start finished.machine
  reading : ReadingsAlike footing finished.machine finished.reading other.reading
  ending : finished.ending = other.ending

/-- What has finished alike on a later machine has done so on an earlier one. -/
theorem FinishedAlike.after {finished other : Finished Host}
    (alike : FinishedAlike footing machine finished other) (before : footing.later start machine) :
    FinishedAlike footing start finished other :=
  ⟨alike.machine, alike.kept, footing.trans before alike.later, alike.reading, alike.ending⟩

/-- Readings that are alike finish alike. -/
theorem finishedOf_alike {reading other : Reading Host} (ready : footing.holds machine)
    (alike : ReadingsAlike footing machine reading other) (ending : Ending) :
    FinishedAlike footing machine (.of machine reading ending) (.of machine other ending) := by
  obtain ⟨same, kept, later, read⟩ := readRest_alike outputs ready alike
  exact ⟨same, kept, later, read, rfl⟩

/-- Runs that stand together finish alike. -/
theorem finish_alike {run rival : Run Host Value}
    (runs : run.Stands footing (fun _ _ => True) start rival) {reading other : Reading Host}
    (alike : ReadingsAlike footing start reading other) :
    FinishedAlike footing start (finish run reading) (finish rival other) := by
  induction runs generalizing reading other with
  | ended kept reached =>
      exact (finishedOf_alike kept (alike.onward reached) _).after reached
  | @waiting start machine mailbox pending resume rest kept reached taken ih =>
      obtain ⟨same, still, later, read⟩ := readOn_alike outputs [⟨mailbox, pending⟩] machine
        reading other kept (alike.onward reached)
      rw [finish, finish]
      dsimp only
      rw [← same]
      obtain ⟨asked, more⟩ := footing.request still (onlyMailboxes_poll _ mailbox pending)
      generalize (readOn outputs [⟨mailbox, pending⟩] machine reading).1.poll mailbox
        pending = answered at asked more ⊢
      obtain ⟨after, _ | outcome⟩ := answered
      · obtain ⟨withdrawn, last⟩ :=
          footing.request asked (after.onlyMailboxes_abandon mailbox pending.id)
        have past := footing.trans more last
        exact (finishedOf_alike withdrawn (read.onward past) _).after
          (footing.trans reached (footing.trans later past))
      · have past := footing.trans later more
        exact (ih outcome after asked past (read.onward more)).after (footing.trans reached past)

/-! ## Sessions -/

/-- Two sessions have the same machine, and runs that are alike. -/
structure SessionsAlike (footing : Footing Host) (session other : Session Host) : Prop where
  machine : session.machine = other.machine
  ready : footing.holds session.machine
  kept : Option.Rel (GoesOnAlike footing session.machine) session.kept other.kept
  detached : RunsAlike footing session.machine session.detached other.detached

section Sessions

variable {session other : Session Host}

/-- A session starts like itself. -/
theorem sessionsAlike_start (ready : footing.holds machine) :
    SessionsAlike footing (.start machine) (.start machine) :=
  ⟨rfl, ready, .none, .nil⟩

theorem SessionsAlike.runs (alike : SessionsAlike footing session other) :
    RunsAlike footing session.machine session.runs other.runs := by
  obtain ⟨machine, kept, detached⟩ := session
  obtain ⟨machine', kept', detached'⟩ := other
  cases alike.kept with
  | none => exact alike.detached
  | some first => exact .cons first alike.detached

theorem SessionsAlike.reading (alike : SessionsAlike footing session other) :
    ReadingsAlike footing session.machine session.reading other.reading :=
  ⟨alike.runs, rfl, rfl⟩

theorem SessionsAlike.detach (alike : SessionsAlike footing session other) :
    SessionsAlike footing session.detach other.detach :=
  ⟨alike.machine, alike.ready, .none, alike.runs⟩

/-- Sessions stay alike with runs that are alike. -/
theorem SessionsAlike.withRuns (alike : SessionsAlike footing session other)
    {runs others : List (Eval Host Value)} (ready : footing.holds machine)
    (waiting : RunsAlike footing machine runs others) :
    SessionsAlike footing (session.withRuns machine runs) (other.withRuns machine others) := by
  obtain ⟨same, still, -, left⟩ := goOnAll_alike waiting ready
  obtain ⟨before, kept, detached⟩ := session
  obtain ⟨before', kept', detached'⟩ := other
  rw [Session.withRuns, Session.withRuns]
  generalize goOnAll machine runs = gone at same still left ⊢
  generalize goOnAll machine others = rival at same left ⊢
  obtain ⟨later, remaining⟩ := gone
  obtain ⟨later', remaining'⟩ := rival
  cases alike.kept with
  | none => exact ⟨same, still, .none, left⟩
  | some first =>
      cases left with
      | nil => exact ⟨same, still, .none, .nil⟩
      | cons head tail => exact ⟨same, still, .some head, tail⟩

/-- Sessions stay alike when a host changes the machine. -/
theorem SessionsAlike.withMachine (alike : SessionsAlike footing session other)
    (ready : footing.holds machine) (later : footing.later session.machine machine) :
    SessionsAlike footing (session.withMachine machine) (other.withMachine machine) :=
  alike.withRuns ready (alike.runs.onward later)

/-- A drained mailbox gives the same values in both sessions. -/
theorem SessionsAlike.drain (alike : SessionsAlike footing session other) (id : MailboxId) :
    SessionsAlike footing (session.drain id).1 (other.drain id).1 ∧
      (session.drain id).2 = (other.drain id).2 := by
  obtain ⟨same, still, -, read⟩ := readRest_alike [id] alike.ready alike.reading
  rw [Session.drain, Session.drain, ← alike.machine]
  dsimp only
  rw [← same]
  exact ⟨alike.withRuns still read.runs, read.values id⟩

/-- A run is finished alike in both sessions. -/
theorem SessionsAlike.run (alike : SessionsAlike footing session other)
    {launch rival : Machine Host → Run Host Value}
    (launches : GoesOnAlike footing session.machine launch rival) :
    SessionsAlike footing (session.run launch).1 (other.run rival).1 ∧
      (session.run launch).2 = (other.run rival).2 := by
  have runs := launches session.machine alike.ready (footing.refl session.machine)
  have finished := finish_alike runs alike.reading
  rw [Session.run, Session.run, ← alike.machine]
  dsimp only
  rw [← finished.machine, finished.reading.values, finished.reading.values, finished.ending]
  exact ⟨alike.detach.withRuns finished.kept finished.reading.runs, rfl⟩

/-- Both sessions keep a run that waits, or neither does. -/
theorem keep_alike {detached others : List (Eval Host Value)}
    (waiting : RunsAlike footing start detached others) {run rival : Run Host Value}
    (runs : run.Stands footing (fun _ _ => True) start rival) :
    SessionsAlike footing (Session.keep detached run).1 (Session.keep others rival).1 ∧
      (Session.keep detached run).2 = (Session.keep others rival).2 := by
  cases runs with
  | ended kept reached => exact ⟨⟨rfl, kept, .none, waiting.onward reached⟩, rfl⟩
  | waiting kept reached taken =>
      refine ⟨⟨rfl, kept, .some fun machine ready later => ?_, waiting.onward reached⟩, rfl⟩
      exact .waiting ready (footing.refl machine) fun answer found held more =>
        taken answer found held (footing.trans later more)

/-- A run is begun alike in both sessions. -/
theorem SessionsAlike.begin (alike : SessionsAlike footing session other)
    {launch rival : Machine Host → Run Host Value}
    (launches : GoesOnAlike footing session.machine launch rival) :
    SessionsAlike footing (session.begin launch).1 (other.begin rival).1 ∧
      (session.begin launch).2 = (other.begin rival).2 := by
  rw [Session.begin, Session.begin, ← alike.machine]
  exact keep_alike alike.runs
    (launches session.machine alike.ready (footing.refl session.machine))

/-- A run is resumed alike in both sessions. -/
theorem SessionsAlike.resume (alike : SessionsAlike footing session other) :
    SessionsAlike footing session.resume.1 other.resume.1 ∧
      session.resume.2 = other.resume.2 := by
  obtain ⟨machine, kept, detached⟩ := session
  obtain ⟨machine', kept', detached'⟩ := other
  obtain ⟨same, ready, both, waiting⟩ := alike
  dsimp only at same ready both waiting
  subst same
  cases both with
  | none => exact ⟨⟨rfl, ready, .none, waiting⟩, rfl⟩
  | some first =>
      have gone := goOn_alike (first machine ready (footing.refl machine))
      obtain ⟨after, ending⟩ := keep_alike waiting gone
      exact ⟨after, congrArg some ending⟩

end Sessions

end CommandScript.Host
