import CommandScript.Text.Quoted

/-!
# Signals to give up

A token tells whoever waits with it to give up, either because it has been cancelled or because its
deadline has passed. Time is a clock of milliseconds that only moves when it is told to.
-/

namespace CommandScript.Mailbox

/-- Why a request to a mailbox fails. -/
inductive Failure where
  /-- The mailbox no longer does what is asked. -/
  | notRunning
  | cancelled
  | deadlineExceeded
deriving DecidableEq, Repr

/-- How the reason is told. -/
def Failure.message : Failure → String
  | .notRunning => "mailbox is not in a running state"
  | .cancelled => "operation cancelled"
  | .deadlineExceeded => "deadline exceeded"

/-- Tokens are numbered in the order in which they are made. -/
abbrev TokenId : Type := Nat

/-- A token, with the time of its deadline if it has one. -/
structure Token where
  cancelled : Bool
  deadline : Option Nat
deriving DecidableEq, Repr

/-- The clock and the tokens. -/
structure Signals where
  clock : Nat
  tokens : List Token
deriving DecidableEq, Repr

/-- A token without a deadline as a diagnostic shows it; a deadline is shown by its time. -/
def Token.inspected (token : Token) : String :=
  let deadline :=
    match token.deadline with
    | none => "None"
    | some time => "Some(" ++ toString time ++ ")"
  "CancelToken \x7b cancelled: " ++ Text.truthText token.cancelled ++ ", deadline: " ++ deadline ++
    " \x7d"

namespace Signals

/-- No time has passed and there are no tokens. -/
def start : Signals :=
  ⟨0, []⟩

/-- The signals with a further token, which may have a deadline after a span of time. -/
def addToken (signals : Signals) (timeout : Option Nat) : Signals :=
  { signals with tokens := signals.tokens ++ [⟨false, timeout.map (signals.clock + ·)⟩] }

/-- The signals after a token is cancelled. -/
def cancel (signals : Signals) (token : TokenId) : Signals :=
  { signals with
    tokens := signals.tokens.modify token fun token => { token with cancelled := true } }

/-- The signals after a span of time. -/
def advance (signals : Signals) (span : Nat) : Signals :=
  { signals with clock := signals.clock + span }

/-- Why a token tells to give up, if it does. Of a token that is cancelled and whose deadline has
passed either could be told; here it is that it is cancelled. Mailboxes are given this function and
do not depend on the choice. -/
def fired? (signals : Signals) (token : TokenId) : Option Failure :=
  match signals.tokens[token]? with
  | none => none
  | some token =>
    if token.cancelled then some .cancelled
    else if token.deadline.any fun deadline => deadline ≤ signals.clock then some .deadlineExceeded
    else none

/-- The time left until the deadline of a token. -/
def left? (signals : Signals) (token : TokenId) : Option Nat :=
  match signals.tokens[token]? with
  | none => none
  | some token => token.deadline.map (· - signals.clock)

end Signals

end CommandScript.Mailbox
