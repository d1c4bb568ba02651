import CommandScript.Proofs.Evaluation.Comparison

/-!
# Matching runs

Two runs match if they come to rest together: they end with the same outcome, or they wait for the
answer to the same request, on machines that are alike, and taken up again on machines that are
alike they match again. So whoever sees no difference between the machines sees none between the
runs.
-/

namespace CommandScript.Evaluation

open CommandScript.Machine CommandScript.Source

variable {Host Other α β : Type}

/-- The two runs come to rest together, and each time on machines that are alike. A value that they
end with has a property. -/
inductive Run.Matches (alike : Machine Host → Machine Other → Prop) (ok : α → Prop) :
    Run Host α → Run Other α → Prop where
  | ended {outcome : Except Halt α} {first : Machine Host} {second : Machine Other}
    (good : ∀ value, outcome = .ok value → ok value) (same : alike first second) :
    Matches alike ok (.ended outcome first) (.ended outcome second)
  | waiting {mailbox : MailboxId} {pending : Mailbox.Pending} {first : Machine Host}
    {second : Machine Other} {resume : Mailbox.Outcome Value → Machine Host → Run Host α}
    {resume' : Mailbox.Outcome Value → Machine Other → Run Other α} (same : alike first second)
    (rest : ∀ answer later later', alike later later' →
      Matches alike ok (resume answer later) (resume' answer later')) :
    Matches alike ok (.waiting mailbox pending first resume)
      (.waiting mailbox pending second resume')

namespace Run.Matches

variable {alike : Machine Host → Machine Other → Prop} {ok : α → Prop} {fine : β → Prop}
  {run : Run Host α} {run' : Run Other α}

theorem value {value : α} {first : Machine Host} {second : Machine Other} (good : ok value)
    (same : alike first second) :
    Matches alike ok (.ended (.ok value) first) (.ended (.ok value) second) :=
  .ended (fun _ told => by cases told; exact good) same

theorem halted {halt : Halt} {first : Machine Host} {second : Machine Other}
    (same : alike first second) :
    Matches alike ok (.ended (.error halt) first) (.ended (.error halt) second) :=
  .ended nofun same

/-- Runs match part by part. -/
theorem andThen (matched : Matches alike ok run run') {next : α → Eval Host β}
    {next' : α → Eval Other β}
    (rest : ∀ value first second, ok value → alike first second →
      Matches alike fine (next value first) (next' value second)) :
    Matches alike fine (run.andThen next) (run'.andThen next') := by
  induction matched with
  | @ended outcome first second good same =>
      cases outcome with
      | ok value => exact rest value _ _ (good value rfl) same
      | error halt => exact .halted same
  | waiting same _ ih =>
      exact .waiting same fun answer later later' alike => ih answer later later' alike

theorem mapError (matched : Matches alike ok run run') (tell : EvalError → EvalError) :
    Matches alike ok (run.mapError tell) (run'.mapError tell) := by
  induction matched with
  | @ended outcome first second good same =>
      rcases outcome with (error | _) | value
      · exact .halted same
      · exact .halted same
      · exact .value (good value rfl) same
  | waiting same _ ih =>
      exact .waiting same fun answer later later' alike => ih answer later later' alike

/-- Changes after an error must leave the machines alike. -/
theorem onHalt (matched : Matches alike ok run run') {change : Machine Host → Machine Host}
    {change' : Machine Other → Machine Other}
    (changed : ∀ first second, alike first second → alike (change first) (change' second)) :
    Matches alike ok (run.onHalt change) (run'.onHalt change') := by
  induction matched with
  | @ended outcome first second good same =>
      cases outcome with
      | ok value => exact .value (good value rfl) same
      | error halt => exact .halted (changed _ _ same)
  | waiting same _ ih =>
      exact .waiting same fun answer later later' alike => ih answer later later' alike

/-- A property of the values may be given up for a weaker one. -/
theorem weaken {weaker : α → Prop} (matched : Matches alike ok run run')
    (weak : ∀ value, ok value → weaker value) : Matches alike weaker run run' := by
  induction matched with
  | ended good same => exact .ended (fun value told => weak value (good value told)) same
  | waiting same _ ih => exact .waiting same ih

end Run.Matches

/-- Started on machines that are alike the computations match. -/
def Eval.Matches (alike : Machine Host → Machine Other → Prop) (ok : α → Prop)
    (computation : Eval Host α) (other : Eval Other α) : Prop :=
  ∀ first second, alike first second →
    Run.Matches alike ok (computation first) (other second)

namespace Eval.Matches

variable {alike : Machine Host → Machine Other → Prop} {ok : α → Prop} {fine : β → Prop}

theorem pure {value : α} (good : ok value) :
    Matches alike ok (Eval.pure value) (Eval.pure value) :=
  fun _ _ same => .value good same

theorem fail (error : EvalError) :
    Matches alike ok (Eval.fail error) (Eval.fail error) :=
  fun _ _ same => .halted same

theorem exhausted : Matches alike ok Eval.exhausted Eval.exhausted :=
  fun _ _ same => .halted same

/-- Computations match part by part. -/
theorem bind {first : Eval Host α} {other : Eval Other α} {next : α → Eval Host β}
    {rest : α → Eval Other β} (head : Matches alike ok first other)
    (tail : ∀ value, ok value → Matches alike fine (next value) (rest value)) :
    Matches alike fine (first >>= next) (other >>= rest) :=
  fun machine machine' same => (head machine machine' same).andThen
    fun value later later' good => tail value good later later'

theorem mapError {computation : Eval Host α} {other : Eval Other α}
    (matched : Matches alike ok computation other) (tell : EvalError → EvalError) :
    Matches alike ok (computation.mapError tell) (other.mapError tell) :=
  fun machine machine' same => (matched machine machine' same).mapError tell

/-- Both find the same in machines that are alike. -/
theorem read {look : Machine Host → α} {look' : Machine Other → α}
    (seen : ∀ first second, alike first second → look' second = look first ∧ ok (look first)) :
    Matches alike ok (Eval.read look) (Eval.read look') := by
  intro first second same
  obtain ⟨equal, good⟩ := seen first second same
  change Run.Matches alike ok (.ended (.ok (look first)) first) (.ended (.ok (look' second)) second)
  rw [equal]
  exact .value good same

/-- Changes match that leave the machines alike. -/
theorem modify {change : Machine Host → Machine Host} {change' : Machine Other → Machine Other}
    (changed : ∀ first second, alike first second → alike (change first) (change' second)) :
    Matches alike (fun _ => True) (Eval.modify change) (Eval.modify change') :=
  fun first second same => .value trivial (changed first second same)

end Eval.Matches

end CommandScript.Evaluation
