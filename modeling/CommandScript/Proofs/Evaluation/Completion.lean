import CommandScript.Proofs.Evaluation.Footing

/-!
# Computations that come to an end

Every run is finite, but it may end for want of steps. A run that comes to an end does not: it ends
with a value or a failure, however the requests that it waits for are answered, as long as the
footing is kept while it waits. What follows a value may rely on the footing; after a failure
nothing follows.
-/

namespace CommandScript.Evaluation

open CommandScript.Machine

variable {Host α β : Type} {footing : Footing Host} {ok : α → Prop} {fine : β → Prop}
  {start middle : Machine Host}

/-- A run that began on a machine ends with a value that has a property, on a machine where the
footing is kept, or with a failure. -/
inductive Run.Completes (footing : Footing Host) (ok : α → Prop) :
    Machine Host → Run Host α → Prop where
  | value {start machine : Machine Host} {value : α} (kept : footing.holds machine)
    (reached : footing.later start machine) (good : ok value) :
    Completes footing ok start (.ended (.ok value) machine)
  | failed {start machine : Machine Host} (error : EvalError) :
    Completes footing ok start (.ended (.error (.failed error)) machine)
  | waiting {start machine : Machine Host} {mailbox : MailboxId} {pending : Mailbox.Pending}
    {resume : Mailbox.Outcome Value → Machine Host → Run Host α} (kept : footing.holds machine)
    (reached : footing.later start machine)
    (taken : ∀ answer found, footing.holds found → footing.later machine found →
      Completes footing ok found (resume answer found)) :
    Completes footing ok start (.waiting mailbox pending machine resume)

/-- The runs of a computation come to an end on all machines that come after one. -/
def Eval.Completes (footing : Footing Host) (ok : α → Prop) (start : Machine Host)
    (computation : Eval Host α) : Prop :=
  ∀ machine, footing.holds machine → footing.later start machine →
    Run.Completes footing ok machine (computation machine)

namespace Run.Completes

variable {run : Run Host α}

/-- The run may have begun earlier. -/
theorem after (completes : run.Completes footing ok middle) (before : footing.later start middle) :
    run.Completes footing ok start := by
  cases completes with
  | value kept reached good => exact .value kept (footing.trans before reached) good
  | failed error => exact .failed error
  | waiting kept reached taken => exact .waiting kept (footing.trans before reached) taken

/-- A run completes if its first part does and then what follows on any machine. -/
theorem andThen {next : α → Eval Host β} (completes : run.Completes footing ok start)
    (tail : ∀ value machine, footing.later start machine → ok value →
      (next value).Completes footing fine machine) :
    (run.andThen next).Completes footing fine start := by
  induction completes with
  | @value start machine value kept reached good =>
      exact (tail value machine reached good machine kept (footing.refl machine)).after reached
  | failed error => exact .failed error
  | waiting kept reached taken ih =>
      refine .waiting kept reached fun answer found still later => ih answer found still later ?_
      exact fun value machine more => tail value machine
        (footing.trans reached (footing.trans later more))

theorem mapError (completes : run.Completes footing ok start) (tell : EvalError → EvalError) :
    (run.mapError tell).Completes footing ok start := by
  induction completes with
  | value kept reached good => exact .value kept reached good
  | failed error => exact .failed (tell error)
  | waiting kept reached taken ih => exact .waiting kept reached ih

/-- What is done to the machine after a failure does not matter. -/
theorem onHalt (completes : run.Completes footing ok start)
    (change : Machine Host → Machine Host) : (run.onHalt change).Completes footing ok start := by
  induction completes with
  | value kept reached good => exact .value kept reached good
  | failed error => exact .failed error
  | waiting kept reached taken ih => exact .waiting kept reached ih

end Run.Completes

namespace Eval.Completes

variable {computation : Eval Host α}

theorem pure {value : α} (good : ok value) :
    (Eval.pure value : Eval Host α).Completes footing ok start :=
  fun machine kept _ => .value kept (footing.refl machine) good

theorem fail (error : EvalError) : (Eval.fail error : Eval Host α).Completes footing ok start :=
  fun _ _ _ => .failed error

theorem read {look : Machine Host → α}
    (good : ∀ machine, footing.holds machine → ok (look machine)) :
    (Eval.read look).Completes footing ok start :=
  fun machine kept _ => .value kept (footing.refl machine) (good machine kept)

/-- Nothing has to be known of what is read. -/
theorem look (look : Machine Host → α) :
    (Eval.read look).Completes footing (fun _ => True) start :=
  read fun _ _ => trivial

/-- The second computation starts on the machine that the first one has led to. -/
theorem bind {next : α → Eval Host β} (head : computation.Completes footing ok start)
    (tail : ∀ value machine, footing.later start machine → ok value →
      (next value).Completes footing fine machine) :
    (computation >>= next).Completes footing fine start :=
  fun machine kept later => (head machine kept later).andThen fun value after more =>
    tail value after (footing.trans later more)

theorem mapError (completes : computation.Completes footing ok start)
    (tell : EvalError → EvalError) : (computation.mapError tell).Completes footing ok start :=
  fun machine kept later => (completes machine kept later).mapError tell

end Eval.Completes

/-- Computations that come to an end after a machine, whatever has been done since. -/
def Footing.completing (footing : Footing Host) (start : Machine Host) : Conduct Host Host where
  Stage := Unit
  later _ _ := True
  rel _ ok computation _ := ∀ middle, footing.later start middle →
    computation.Completes footing (ok ()) middle
  pure good _ _ := .pure (good () trivial)
  fail error _ _ := .fail error
  bind head tail middle before := (head middle before).bind fun value machine more good =>
    tail value () trivial good machine (footing.trans before more)
  mapError completes tell middle before := (completes middle before).mapError tell

end CommandScript.Evaluation
