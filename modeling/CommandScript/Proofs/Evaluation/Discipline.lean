import CommandScript.Proofs.Evaluation.Judgement

/-!
# Disciplines of runs

A run proceeds in stretches, from where it starts or is taken up to where it waits or ends. A
discipline says what a stretch may do, and what it relies on others not to do while the run waits.
Computations that follow a discipline may be put together.
-/

namespace CommandScript.Evaluation

open CommandScript.Machine

/-- What a stretch of a run does to the machine, what others do while the run waits, and where a
computation may start. -/
structure Discipline (Host : Type) where
  ready : Machine Host → Prop
  own : Machine Host → Machine Host → Prop
  others : Machine Host → Machine Host → Prop
  own_refl : ∀ machine, own machine machine
  own_trans : ∀ {before middle after}, own before middle → own middle after → own before after
  ready_of_own : ∀ {before after}, ready before → own before after → ready after
  ready_of_others : ∀ {before after}, ready before → others before after → ready after

variable {Host α β : Type} {discipline : Discipline Host}

/-- All stretches of a run that began on a machine follow a discipline, as long as the others do
while it waits. -/
def Run.Follows (discipline : Discipline Host) (start : Machine Host) : Run Host α → Prop
  | .ended _ machine => discipline.own start machine
  | .waiting _ _ machine resume =>
    discipline.own start machine ∧ ∀ answer later, discipline.others machine later →
      (resume answer later).Follows discipline later

/-- All runs of a computation follow a discipline. -/
def Eval.Follows (discipline : Discipline Host) (computation : Eval Host α) : Prop :=
  ∀ machine, discipline.ready machine → (computation machine).Follows discipline machine

/-- A run follows a discipline, and if it ends with a value, that has a property. -/
def Run.FollowsTo (discipline : Discipline Host) (ok : α → Prop) (start : Machine Host) :
    Run Host α → Prop
  | .ended outcome machine => discipline.own start machine ∧ ∀ value, outcome = .ok value → ok value
  | .waiting _ _ machine resume =>
    discipline.own start machine ∧ ∀ answer later, discipline.others machine later →
      (resume answer later).FollowsTo discipline ok later

/-- All runs of a computation follow a discipline, with values of a property. -/
def Eval.FollowsTo (discipline : Discipline Host) (ok : α → Prop) (computation : Eval Host α) :
    Prop :=
  ∀ machine, discipline.ready machine → (computation machine).FollowsTo discipline ok machine

namespace Run

variable {start : Machine Host} {run : Run Host α} {ok : α → Prop} {fine : β → Prop}

theorem FollowsTo.value {machine : Machine Host} {value : α} (own : discipline.own start machine)
    (good : ok value) : (Run.ended (.ok value) machine).FollowsTo discipline ok start :=
  ⟨own, fun _ told => by cases told; exact good⟩

theorem FollowsTo.halted {machine : Machine Host} {halt : Halt}
    (own : discipline.own start machine) :
    (Run.ended (.error halt) machine).FollowsTo discipline ok start :=
  ⟨own, nofun⟩

theorem FollowsTo.follows (follows : run.FollowsTo discipline ok start) :
    run.Follows discipline start := by
  induction run generalizing start with
  | ended outcome machine => exact follows.1
  | waiting mailbox pending machine resume ih =>
      exact ⟨follows.1, fun answer later others => ih answer later (follows.2 answer later others)⟩

theorem Follows.toAny (follows : run.Follows discipline start) :
    run.FollowsTo discipline (fun _ => True) start := by
  induction run generalizing start with
  | ended outcome machine => exact ⟨follows, fun _ _ => trivial⟩
  | waiting mailbox pending machine resume ih =>
      exact ⟨follows.1, fun answer later others => ih answer later (follows.2 answer later others)⟩

/-- What was done before a run counts as part of its first stretch. -/
theorem FollowsTo.after {middle : Machine Host} (before : discipline.own start middle)
    (follows : run.FollowsTo discipline ok middle) : run.FollowsTo discipline ok start := by
  cases run with
  | ended outcome machine => exact ⟨discipline.own_trans before follows.1, follows.2⟩
  | waiting mailbox pending machine resume =>
      exact ⟨discipline.own_trans before follows.1, follows.2⟩

/-- A run follows in two parts, the second from any value that the first may yield. -/
theorem FollowsTo.andThen {next : α → Eval Host β} (ready : discipline.ready start)
    (first : run.FollowsTo discipline ok start)
    (second : ∀ value, ok value → (next value).FollowsTo discipline fine) :
    (run.andThen next).FollowsTo discipline fine start := by
  induction run generalizing start with
  | ended outcome machine =>
      obtain ⟨own, good⟩ := first
      cases outcome with
      | ok value =>
          have ready := discipline.ready_of_own ready own
          exact (second value (good value rfl) machine ready).after own
      | error halt => exact .halted own
  | waiting mailbox pending machine resume ih =>
      obtain ⟨own, taken⟩ := first
      refine ⟨own, fun answer later others => ?_⟩
      apply ih answer later
      · exact discipline.ready_of_others (discipline.ready_of_own ready own) others
      · exact taken answer later others

theorem FollowsTo.mapError (follows : run.FollowsTo discipline ok start)
    (tell : EvalError → EvalError) : (run.mapError tell).FollowsTo discipline ok start := by
  induction run generalizing start with
  | ended outcome machine =>
      rcases outcome with (error | _) | value
      · exact .halted follows.1
      · exact .halted follows.1
      · exact follows
  | waiting mailbox pending machine resume ih =>
      exact ⟨follows.1, fun answer later others => ih answer later (follows.2 answer later others)⟩

/-- A change after an error must be a step of the run itself. -/
theorem FollowsTo.onHalt {change : Machine Host → Machine Host}
    (follows : run.FollowsTo discipline ok start)
    (changed : ∀ machine, discipline.own machine (change machine)) :
    (run.onHalt change).FollowsTo discipline ok start := by
  induction run generalizing start with
  | ended outcome machine =>
      cases outcome with
      | ok value => exact follows
      | error halt => exact .halted (discipline.own_trans follows.1 (changed machine))
  | waiting mailbox pending machine resume ih =>
      exact ⟨follows.1, fun answer later others => ih answer later (follows.2 answer later others)⟩

/-- A discipline may be given up for one that asks less of the run and expects no more of the
others. -/
theorem Follows.weaken {weaker : Discipline Host} (follows : run.Follows discipline start)
    (own : ∀ before after, discipline.own before after → weaker.own before after)
    (others : ∀ before after, weaker.others before after → discipline.others before after) :
    run.Follows weaker start := by
  induction run generalizing start with
  | ended outcome machine => exact own start machine follows
  | waiting mailbox pending machine resume ih =>
      refine ⟨own start machine follows.1, fun answer later allowed => ?_⟩
      exact ih answer later (follows.2 answer later (others machine later allowed))

end Run

theorem Eval.FollowsTo.follows {computation : Eval Host α} {ok : α → Prop}
    (follows : computation.FollowsTo discipline ok) : computation.Follows discipline :=
  fun machine ready => (follows machine ready).follows

theorem Eval.Follows.toAny {computation : Eval Host α} (follows : computation.Follows discipline) :
    computation.FollowsTo discipline fun _ => True :=
  fun machine ready => (follows machine ready).toAny

/-- Under a discipline that allows more, a computation follows as well. -/
theorem Eval.Follows.weaken {weaker : Discipline Host} {computation : Eval Host α}
    (follows : computation.Follows discipline)
    (ready : ∀ machine, weaker.ready machine → discipline.ready machine)
    (own : ∀ before after, discipline.own before after → weaker.own before after)
    (others : ∀ before after, weaker.others before after → discipline.others before after) :
    computation.Follows weaker :=
  fun machine prepared => (follows machine (ready machine prepared)).weaken own others

/-- Computations follow one after the other. -/
theorem Eval.FollowsTo.bind {first : Eval Host α} {next : α → Eval Host β} {ok : α → Prop}
    {fine : β → Prop} (head : first.FollowsTo discipline ok)
    (tail : ∀ value, ok value → (next value).FollowsTo discipline fine) :
    (first >>= next).FollowsTo discipline fine :=
  fun machine ready => (head machine ready).andThen ready tail

theorem Eval.FollowsTo.mapError {computation : Eval Host α} {ok : α → Prop}
    (follows : computation.FollowsTo discipline ok) (tell : EvalError → EvalError) :
    (computation.mapError tell).FollowsTo discipline ok :=
  fun machine ready => (follows machine ready).mapError tell

/-- Computations that follow a discipline. What is known of a value holds for good, so there are no
stages to tell apart. -/
def Discipline.conduct (discipline : Discipline Host) : Conduct Host Host where
  Stage := Unit
  later _ _ := True
  rel _ ok computation _ := computation.FollowsTo discipline (ok ())
  pure good machine _ := .value (discipline.own_refl machine) (good () trivial)
  fail _ machine _ := .halted (discipline.own_refl machine)
  bind head tail := head.bind fun value good => tail value () trivial good
  mapError follows tell := follows.mapError tell

/-! ## Courses -/

/-- A wait of a run: the machine it was left on, and the one it was taken up on. -/
structure Pause (Host : Type) where
  left : Machine Host
  found : Machine Host

/-- A run may take this course: it is taken up after each of the pauses and ends with an outcome on
a machine. -/
inductive Run.Course : Run Host α → List (Pause Host) → Except Halt α → Machine Host → Prop where
  | ended (outcome : Except Halt α) (machine : Machine Host) :
    Course (.ended outcome machine) [] outcome machine
  | resumed {mailbox : MailboxId} {pending : Mailbox.Pending} {machine : Machine Host}
    {resume : Mailbox.Outcome Value → Machine Host → Run Host α} {pauses : List (Pause Host)}
    {outcome : Except Halt α} {final : Machine Host} (answer : Mailbox.Outcome Value)
    (later : Machine Host) (rest : (resume answer later).Course pauses outcome final) :
    Course (.waiting mailbox pending machine resume) (⟨machine, later⟩ :: pauses) outcome final

namespace Run

variable {run : Run Host α} {pauses : List (Pause Host)} {outcome : Except Halt α}
  {start final : Machine Host}

/-- What the stretches of a run and its pauses keep holds at its end. -/
theorem Follows.holds_at_end {holds : Machine Host → Prop}
    (course : run.Course pauses outcome final)
    (follows : run.Follows discipline start)
    (stable : ∀ before after, holds before → discipline.own before after → holds after)
    (others : ∀ pause ∈ pauses, discipline.others pause.left pause.found)
    (undisturbed : ∀ pause ∈ pauses, holds pause.left → holds pause.found) (atStart : holds start) :
    holds final := by
  induction course generalizing start with
  | ended outcome machine => exact stable start machine atStart follows
  | resumed answer later rest ih =>
      rw [List.forall_mem_cons] at others undisturbed
      obtain ⟨own, taken⟩ := follows
      apply ih (taken answer later others.1) others.2 undisturbed.2
      exact undisturbed.1 (stable _ _ atStart own)

/-- If the others do nothing in the pauses but what the run itself may do, the whole course is as
one stretch. -/
theorem Follows.own_of_course (course : run.Course pauses outcome final)
    (follows : run.Follows discipline start)
    (others : ∀ pause ∈ pauses, discipline.others pause.left pause.found)
    (alike : ∀ pause ∈ pauses, discipline.own pause.left pause.found) :
    discipline.own start final := by
  apply follows.holds_at_end course (fun _ _ => discipline.own_trans) others
  · intro pause member before
    exact discipline.own_trans before (alike pause member)
  · exact discipline.own_refl start

/-- The course of one computation after another: the first halts, or yields a value that the second
goes on with. -/
theorem Course.of_andThen {next : α → Eval Host β} {outcome : Except Halt β}
    (course : (run.andThen next).Course pauses outcome final) :
    (∃ halt, outcome = .error halt ∧ run.Course pauses (.error halt) final) ∨
      ∃ value middle early late, pauses = early ++ late ∧ run.Course early (.ok value) middle ∧
        (next value middle).Course late outcome final := by
  induction run generalizing pauses with
  | ended ending machine =>
      cases ending with
      | error halt =>
          cases course
          exact .inl ⟨halt, rfl, .ended _ _⟩
      | ok value => exact .inr ⟨value, machine, [], pauses, rfl, .ended _ _, course⟩
  | waiting mailbox pending machine resume ih =>
      cases course with
      | resumed answer later rest =>
          rcases ih answer later rest with ⟨halt, ending, halted⟩ | found
          · exact .inl ⟨halt, ending, .resumed answer later halted⟩
          · obtain ⟨value, middle, early, late, rfl, first, second⟩ := found
            exact .inr ⟨value, middle, ⟨machine, later⟩ :: early, late, rfl,
              .resumed answer later first, second⟩

/-- A course that ends with a value goes through one of the first computation that does. -/
theorem Course.of_bind {first : Eval Host α} {next : α → Eval Host β} {machine : Machine Host}
    {value : β} (course : ((first >>= next) machine).Course pauses (.ok value) final) :
    ∃ given middle early late, (first machine).Course early (.ok given) middle ∧
      (next given middle).Course late (.ok value) final := by
  rcases Course.of_andThen course with ⟨halt, impossible, -⟩ | found
  · cases impossible
  · obtain ⟨given, middle, early, late, -, head, tail⟩ := found
    exact ⟨given, middle, early, late, head, tail⟩

/-- A run whose failure is told in another way takes the course of the run itself. -/
theorem Course.of_mapError {tell : EvalError → EvalError}
    (course : (run.mapError tell).Course pauses outcome final) :
    (∃ halt told, outcome = .error told ∧ run.Course pauses (.error halt) final) ∨
      ∃ value, outcome = .ok value ∧ run.Course pauses (.ok value) final := by
  induction run generalizing pauses with
  | ended ending machine =>
      rcases ending with (error | _) | value
      · cases course
        exact .inl ⟨_, _, rfl, .ended _ _⟩
      · cases course
        exact .inl ⟨_, _, rfl, .ended _ _⟩
      · cases course
        exact .inr ⟨value, rfl, .ended _ _⟩
  | waiting mailbox pending machine resume ih =>
      cases course with
      | resumed answer later rest =>
          rcases ih answer later rest with ⟨halt, told, ending, halted⟩ | ⟨value, ending, ended⟩
          · exact .inl ⟨halt, told, ending, .resumed answer later halted⟩
          · exact .inr ⟨value, ending, .resumed answer later ended⟩

/-- A run after which the machine is changed if it stopped without a value: it yields one, or its
course ends on the machine before that change. -/
theorem Course.of_onHalt {change : Machine Host → Machine Host}
    (course : (run.onHalt change).Course pauses outcome final) :
    (∃ halt stopped, outcome = .error halt ∧ run.Course pauses (.error halt) stopped ∧
      final = change stopped) ∨
      ∃ value, outcome = .ok value ∧ run.Course pauses (.ok value) final := by
  induction run generalizing pauses with
  | ended ending machine =>
      cases ending with
      | error halt =>
          cases course
          exact .inl ⟨halt, machine, rfl, .ended _ _, rfl⟩
      | ok value =>
          cases course
          exact .inr ⟨value, rfl, .ended _ _⟩
  | waiting mailbox pending machine resume ih =>
      cases course with
      | resumed answer later rest =>
          rcases ih answer later rest with ⟨halt, stopped, ending, halted, same⟩ | ⟨value, ending, ended⟩
          · exact .inl ⟨halt, stopped, ending, .resumed answer later halted, same⟩
          · exact .inr ⟨value, ending, .resumed answer later ended⟩

end Run

end CommandScript.Evaluation
