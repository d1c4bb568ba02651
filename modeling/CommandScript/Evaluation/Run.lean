import CommandScript.Machine.Basic

/-!
# Runs

A run of a computation on a machine ends with a result and the machine it leaves behind, or it waits
for the answer to a request. A waiting run is taken up again with that answer, on the machine of
that time. A computation is a function from machines to runs; one computation follows another if the
first yields a value, also after a wait.
-/

namespace CommandScript.Evaluation

open CommandScript.Machine

/-- Why a computation stops without a value: it fails, or it was given too few steps. -/
inductive Halt where
  | failed (error : EvalError)
  | exhausted
deriving DecidableEq

/-- The course of a computation. -/
inductive Run (Host α : Type) where
  | ended (outcome : Except Halt α) (machine : Machine Host)
  /-- A request to a mailbox has not been answered. -/
  | waiting (mailbox : MailboxId) (pending : Mailbox.Pending) (machine : Machine Host)
    (resume : Mailbox.Outcome Value → Machine Host → Run Host α)

/-- A computation on a machine. -/
def Eval (Host α : Type) : Type :=
  Machine Host → Run Host α

variable {Host α β : Type}

/-- The run that goes on with a computation on the value of the first. -/
def Run.andThen (run : Run Host α) (next : α → Eval Host β) : Run Host β :=
  match run with
  | .ended (.ok value) machine => next value machine
  | .ended (.error halt) machine => .ended (.error halt) machine
  | .waiting mailbox pending machine resume =>
    .waiting mailbox pending machine fun outcome later => (resume outcome later).andThen next

/-- The run after which the machine is changed if the computation stopped without a value. -/
def Run.onHalt (run : Run Host α) (change : Machine Host → Machine Host) : Run Host α :=
  match run with
  | .ended (.ok value) machine => .ended (.ok value) machine
  | .ended (.error halt) machine => .ended (.error halt) (change machine)
  | .waiting mailbox pending machine resume =>
    .waiting mailbox pending machine fun outcome later => (resume outcome later).onHalt change

/-- The run in which a failure is told in another way. -/
def Run.mapError (run : Run Host α) (tell : EvalError → EvalError) : Run Host α :=
  match run with
  | .ended (.ok value) machine => .ended (.ok value) machine
  | .ended (.error (.failed error)) machine => .ended (.error (.failed (tell error))) machine
  | .ended (.error .exhausted) machine => .ended (.error .exhausted) machine
  | .waiting mailbox pending machine resume =>
    .waiting mailbox pending machine fun outcome later => (resume outcome later).mapError tell

/-- The machine that the run has left behind so far. -/
def Run.machine : Run Host α → Machine Host
  | .ended _ machine => machine
  | .waiting _ _ machine _ => machine

/-- The run as it is now, taken up on another machine. -/
def Run.rest : Run Host α → Eval Host α
  | .ended outcome _ => fun machine => .ended outcome machine
  | .waiting mailbox pending _ resume => fun machine => .waiting mailbox pending machine resume

/-- The run goes on as long as the request that it waits for has been answered. -/
def Run.goOn : Run Host α → Run Host α
  | .ended outcome machine => .ended outcome machine
  | .waiting mailbox pending machine resume =>
    match machine.poll mailbox pending with
    | (polled, some outcome) => (resume outcome polled).goOn
    | (polled, none) => .waiting mailbox pending polled resume

namespace Eval

/-- The computation that only yields a value. -/
def pure (value : α) : Eval Host α :=
  fun machine => .ended (.ok value) machine

/-- Yielding the value at the end changes nothing. -/
theorem andThen_pure (run : Run Host α) : run.andThen pure = run := by
  induction run with
  | ended outcome machine => cases outcome <;> rfl
  | waiting mailbox pending machine resume ih =>
    rw [Run.andThen]
    congr 1
    funext outcome later
    exact ih outcome later

/-- What goes on with a value may go on in two parts. -/
theorem andThen_assoc {γ : Type} (run : Run Host α) (next : α → Eval Host β)
    (last : β → Eval Host γ) :
    (run.andThen next).andThen last = run.andThen fun value machine =>
      (next value machine).andThen last := by
  induction run with
  | ended outcome machine => cases outcome <;> rfl
  | waiting mailbox pending machine resume ih =>
    simp only [Run.andThen]
    congr 1
    funext outcome later
    exact ih outcome later

/-- The computation that only fails. -/
def fail (error : EvalError) : Eval Host α :=
  fun machine => .ended (.error (.failed error)) machine

/-- The computation that was given too few steps. -/
def exhausted : Eval Host α :=
  fun machine => .ended (.error .exhausted) machine

/-- One computation after another. -/
def bind (first : Eval Host α) (next : α → Eval Host β) : Eval Host β :=
  fun machine => (first machine).andThen next

/-- The computation that yields what it finds in the machine. -/
def read (look : Machine Host → α) : Eval Host α :=
  fun machine => .ended (.ok (look machine)) machine

/-- The computation that only changes the machine. -/
def modify (change : Machine Host → Machine Host) : Eval Host Unit :=
  fun machine => .ended (.ok ()) (change machine)

/-- The computation whose failure is told in another way. -/
def mapError (computation : Eval Host α) (tell : EvalError → EvalError) : Eval Host α :=
  fun machine => (computation machine).mapError tell

/-- The computation that yields a value or fails. -/
def ofExcept (result : Except EvalError α) : Eval Host α :=
  match result with
  | .ok value => pure value
  | .error error => fail error

/-- The computation that yields a value, or fails for want of one. -/
def ofOption (found : Option α) (error : EvalError) : Eval Host α :=
  match found with
  | some value => pure value
  | none => fail error

/-- The computation that fails unless a condition holds. -/
def require (condition : Bool) (error : EvalError) : Eval Host Unit :=
  if condition then pure () else fail error

end Eval

/-- Computations in sequence. -/
instance : Monad (Eval Host) where
  pure := Eval.pure
  bind := Eval.bind

end CommandScript.Evaluation
