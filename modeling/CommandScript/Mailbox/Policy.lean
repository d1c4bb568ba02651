/-!
# Overflow policies

What a push does when the buffer of its mailbox is full. Configuration texts name each policy; two
of them have a second name.
-/

namespace CommandScript.Mailbox

/-- What a push does when the buffer is full. -/
inductive Policy where
  /-- The push waits until a take frees a place. -/
  | block
  /-- The oldest item makes room. -/
  | dropHead
  /-- The push succeeds and its value is lost. -/
  | dropIncoming
  /-- The newest item makes room. -/
  | dropTail
deriving DecidableEq, Repr

/-- The policy that a configuration text names. -/
def Policy.ofName? (name : String) : Option Policy :=
  match name with
  | "block" => some .block
  | "do-not-drop" => some .block
  | "drop-head" => some .dropHead
  | "drop-oldest" => some .dropHead
  | "drop-incoming" => some .dropIncoming
  | "drop-tail" => some .dropTail
  | _ => none

/-- The first name of the policy. -/
def Policy.name : Policy → String
  | .block => "block"
  | .dropHead => "drop-head"
  | .dropIncoming => "drop-incoming"
  | .dropTail => "drop-tail"

/-- Every policy is found by its own name. -/
theorem Policy.ofName?_name (policy : Policy) : Policy.ofName? policy.name = some policy := by
  cases policy <;> rfl

end CommandScript.Mailbox
