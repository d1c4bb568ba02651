import CommandScript.Proofs.Evaluation.Judgement
import CommandScript.Proofs.Machine.Requests

/-!
# Footings

What is known of a machine when a computation starts, such as that a scope exists, may have to last
while it runs and while others do. A footing says how a machine may become a later one, and what
holds of it whenever a run comes to rest. Two computations stand on a footing together if their runs
do the same there: they end with the same outcome on the same machine, or wait for the same request
and go on alike. So a computation that stands with itself keeps to the footing.
-/

namespace CommandScript.Evaluation

open CommandScript.Machine

/-- What holds of a machine whenever a run comes to rest, and which machines come later. Requests to
mailboxes do no harm. -/
structure Footing (Host : Type) where
  holds : Machine Host → Prop
  later : Machine Host → Machine Host → Prop
  refl : ∀ machine, later machine machine
  trans : ∀ {before middle after}, later before middle → later middle after → later before after
  request : ∀ {before after}, holds before → before.OnlyMailboxes after →
    holds after ∧ later before after

variable {Host α β : Type} {footing : Footing Host} {ok : Machine Host → α → Prop}
  {fine : Machine Host → β → Prop} {start : Machine Host}

/-- Two runs that began on a machine take the same course, as long as the footing is kept while they
wait, and keep it. A value that they end with has a property on the machine they end on. -/
inductive Run.Stands (footing : Footing Host) (ok : Machine Host → α → Prop) :
    Machine Host → Run Host α → Run Host α → Prop where
  | ended {start machine : Machine Host} {outcome : Except Halt α} (kept : footing.holds machine)
    (reached : footing.later start machine)
    (good : ∀ value, outcome = .ok value → ok machine value) :
    Stands footing ok start (.ended outcome machine) (.ended outcome machine)
  | waiting {start machine : Machine Host} {mailbox : MailboxId} {pending : Mailbox.Pending}
    {resume other : Mailbox.Outcome Value → Machine Host → Run Host α}
    (kept : footing.holds machine) (reached : footing.later start machine)
    (taken : ∀ answer found, footing.holds found → footing.later machine found →
      Stands footing ok found (resume answer found) (other answer found)) :
    Stands footing ok start (.waiting mailbox pending machine resume)
      (.waiting mailbox pending machine other)

/-- Two computations stand together on all machines that come after one. -/
def Eval.Stands (footing : Footing Host) (ok : Machine Host → α → Prop) (start : Machine Host)
    (computation other : Eval Host α) : Prop :=
  ∀ machine, footing.holds machine → footing.later start machine →
    Run.Stands footing ok machine (computation machine) (other machine)

namespace Run.Stands

variable {run other : Run Host α}

theorem value {machine : Machine Host} {value : α} (kept : footing.holds machine)
    (reached : footing.later start machine) (good : ok machine value) :
    Run.Stands footing ok start (.ended (.ok value) machine) (.ended (.ok value) machine) :=
  .ended kept reached fun _ told => by cases told; exact good

theorem halted {machine : Machine Host} {halt : Halt} (kept : footing.holds machine)
    (reached : footing.later start machine) :
    Run.Stands footing ok start (.ended (.error halt) machine) (.ended (.error halt) machine) :=
  .ended kept reached nofun

/-- The runs may have begun earlier. -/
theorem after {middle : Machine Host} (stands : run.Stands footing ok middle other)
    (before : footing.later start middle) : run.Stands footing ok start other := by
  cases stands with
  | ended kept reached good => exact .ended kept (footing.trans before reached) good
  | waiting kept reached taken => exact .waiting kept (footing.trans before reached) taken

/-- Runs stand one after the other; the second starts from a later machine. -/
theorem andThen {next rest : α → Eval Host β} (stands : run.Stands footing ok start other)
    (tail : ∀ value machine, footing.later start machine → ok machine value →
      (next value).Stands footing fine machine (rest value)) :
    (run.andThen next).Stands footing fine start (other.andThen rest) := by
  induction stands with
  | @ended start machine outcome kept reached good =>
      cases outcome with
      | error halt => exact .halted kept reached
      | ok value =>
          have on := tail value machine reached (good value rfl) machine kept (footing.refl machine)
          exact on.after reached
  | waiting kept reached taken ih =>
      refine .waiting kept reached fun answer found still later => ih answer found still later ?_
      exact fun value machine more => tail value machine
        (footing.trans reached (footing.trans later more))

theorem mapError (stands : run.Stands footing ok start other) (tell : EvalError → EvalError) :
    (run.mapError tell).Stands footing ok start (other.mapError tell) := by
  induction stands with
  | @ended start machine outcome kept reached good =>
      rcases outcome with (error | _) | value
      · exact .halted kept reached
      · exact .halted kept reached
      · exact .value kept reached (good value rfl)
  | waiting kept reached taken ih => exact .waiting kept reached ih

/-- A change after an error must keep the property and lead to a later machine. -/
theorem onHalt {change : Machine Host → Machine Host} (stands : run.Stands footing ok start other)
    (changed : ∀ machine, footing.holds machine →
      footing.holds (change machine) ∧ footing.later machine (change machine)) :
    (run.onHalt change).Stands footing ok start (other.onHalt change) := by
  induction stands with
  | @ended start machine outcome kept reached good =>
      cases outcome with
      | ok value => exact .value kept reached (good value rfl)
      | error halt =>
          obtain ⟨still, later⟩ := changed machine kept
          exact .halted still (footing.trans reached later)
  | waiting kept reached taken ih => exact .waiting kept reached ih

/-- Runs that stand together end on the same machine. -/
theorem machine_eq (stands : run.Stands footing ok start other) :
    run.machine = other.machine := by
  cases stands <;> rfl

/-- The property holds of the machine where a run ends or waits. -/
theorem holds_machine (stands : run.Stands footing ok start other) :
    footing.holds run.machine := by
  cases stands with
  | ended kept => exact kept
  | waiting kept => exact kept

/-- The machine where a run ends or waits is a later one. -/
theorem later_machine (stands : run.Stands footing ok start other) :
    footing.later start run.machine := by
  cases stands with
  | ended _ reached => exact reached
  | waiting _ reached => exact reached

/-- A property of the values may be given up for a weaker one. -/
theorem weaken {weaker : Machine Host → α → Prop} (stands : run.Stands footing ok start other)
    (weak : ∀ machine value, ok machine value → weaker machine value) :
    run.Stands footing weaker start other := by
  induction stands with
  | ended kept reached good =>
      exact .ended kept reached fun value told => weak _ value (good value told)
  | waiting kept reached taken ih => exact .waiting kept reached ih

/-- The runs may be taken up on a later machine. -/
theorem rest (stands : run.Stands footing (fun _ _ => True) start other) :
    run.rest.Stands footing (fun _ _ => True) run.machine other.rest := by
  intro machine still later
  cases stands with
  | ended => exact .ended still (footing.refl machine) fun _ _ => trivial
  | waiting _ _ taken =>
      refine .waiting still (footing.refl machine) fun answer found kept more => ?_
      exact taken answer found kept (footing.trans later more)

end Run.Stands

namespace Eval.Stands

variable {computation other : Eval Host α}

/-- What stands together after a machine does so after a later one. -/
theorem onward {middle : Machine Host} (stands : computation.Stands footing ok start other)
    (before : footing.later start middle) : computation.Stands footing ok middle other :=
  fun machine kept later => stands machine kept (footing.trans before later)

/-- Less may be said of the value. -/
theorem weaken {weaker : Machine Host → α → Prop}
    (stands : computation.Stands footing ok start other)
    (weak : ∀ machine value, ok machine value → weaker machine value) :
    computation.Stands footing weaker start other :=
  fun machine kept later => (stands machine kept later).weaken weak

theorem pure {value : α} (good : ∀ machine, footing.later start machine → ok machine value) :
    (Eval.pure value : Eval Host α).Stands footing ok start (Eval.pure value) :=
  fun machine kept later => .value kept (footing.refl machine) (good machine later)

theorem fail (error : EvalError) :
    (Eval.fail error : Eval Host α).Stands footing ok start (Eval.fail error) :=
  fun machine kept _ => .halted kept (footing.refl machine)

theorem exhausted : (Eval.exhausted : Eval Host α).Stands footing ok start Eval.exhausted :=
  fun machine kept _ => .halted kept (footing.refl machine)

theorem read {look : Machine Host → α}
    (good : ∀ machine, footing.holds machine → footing.later start machine →
      ok machine (look machine)) :
    (Eval.read look).Stands footing ok start (Eval.read look) :=
  fun machine kept later => .value kept (footing.refl machine) (good machine kept later)

/-- Nothing has to be known of what is read. -/
theorem look (look : Machine Host → α) :
    (Eval.read look).Stands footing (fun _ _ => True) start (Eval.read look) :=
  read fun _ _ _ => trivial

/-- The second computations start on the machine that the first ones have led to. -/
theorem bind {next rest : α → Eval Host β} (head : computation.Stands footing ok start other)
    (tail : ∀ value machine, footing.later start machine → ok machine value →
      (next value).Stands footing fine machine (rest value)) :
    (computation >>= next).Stands footing fine start (other >>= rest) :=
  fun machine kept later => (head machine kept later).andThen fun value after more =>
    tail value after (footing.trans later more)

theorem mapError (stands : computation.Stands footing ok start other)
    (tell : EvalError → EvalError) :
    (computation.mapError tell).Stands footing ok start (other.mapError tell) :=
  fun machine kept later => (stands machine kept later).mapError tell

theorem ofOption {found : Option α} (error : EvalError)
    (good : ∀ value ∈ found, ∀ machine, footing.later start machine → ok machine value) :
    (Eval.ofOption found error : Eval Host α).Stands footing ok start
      (Eval.ofOption found error) := by
  cases found with
  | some value => exact pure (good value rfl)
  | none => exact fail error

theorem require (condition : Bool) (error : EvalError) :
    (Eval.require condition error : Eval Host Unit).Stands footing (fun _ _ => True) start
      (Eval.require condition error) := by
  cases condition with
  | true => exact pure fun _ _ => trivial
  | false => exact fail error

end Eval.Stands

/-- Computations that stand together on a footing, where a stage is the machine that they start
after. -/
def Footing.conduct (footing : Footing Host) : Conduct Host Host where
  Stage := Machine Host
  later := footing.later
  rel start ok computation other := computation.Stands footing ok start other
  pure good := .pure good
  fail error := .fail error
  bind head tail := head.bind tail
  mapError stands tell := stands.mapError tell

end CommandScript.Evaluation
