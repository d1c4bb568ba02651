import CommandScript.Mailbox.Basic

/-!
# Runs of a mailbox

A world is a mailbox with the signals that its clients use. It moves by steps. A step is an
operation, or several in a row, after which the mailbox comes to rest; its report tells what each
operation answered, which requests ended while the mailbox settled, and what was lost. An operation
for which no handle is left does not happen.
-/

namespace CommandScript.Mailbox

variable {α : Type}

/-- A mailbox and the signals of its clients. -/
structure World (α : Type) where
  signals : Signals
  mailbox : Mailbox α

/-- What a client can do. -/
inductive Operation (α : Type) where
  | push (value : α)
  /-- A push that is not set aside if its queue is full. -/
  | tryPush (value : α)
  | pushWith (value : α) (token : TokenId)
  | take
  | takeWith (token : TokenId)
  | wait
  | awaitToken (token : TokenId)
  | abandon (request : RequestId)
  | close
  | discard
  | changeHandles (change : HandleChange)
  | rest
  | newToken (timeout : Option Nat)
  | cancel (token : TokenId)
  | advance (span : Nat)
  | lookAtToken (token : TokenId)
  | lookAtMailbox
deriving DecidableEq, Repr

/-- What an operation answers. -/
inductive Reply (α : Type) where
  | issued (issue : Issue α)
  /-- The value comes back because the queue is full. -/
  | full (value : α)
  /-- Whether the request that is given up was pending. -/
  | abandoned (wasPending : Bool)
  | silent
  | made (token : TokenId)
  | token (token : Option Token) (left : Option Nat)
  | counts (depth discarded : Nat)
  /-- No handle is left that the operation could go through. -/
  | unavailable

/-- There is a handle that the operation goes through, if it goes through one. -/
def Operation.isAvailable (handles : Handles) : Operation α → Bool
  | .push _ | .tryPush _ | .pushWith _ _ | .close | .discard => 0 < handles.writers
  | .take | .takeWith _ | .wait | .lookAtMailbox => 0 < handles.writers + handles.readers
  | .changeHandles change => handles.allow change
  | _ => true

namespace World

/-- A mailbox without requests, at time zero. -/
def start (capacity : Nat) (policy : Policy) (slots : Nat) : World α :=
  ⟨Signals.start, Mailbox.new capacity policy slots⟩

/-- The world with the mailbox that a request leaves behind, and what the client is told. -/
def issued (world : World α) (made : Mailbox α × Issue α) : World α × Reply α :=
  ({ world with mailbox := made.1 }, .issued made.2)

/-- One operation, when there is a handle that it goes through. -/
def perform (world : World α) : Operation α → World α × Reply α
  | .push value => world.issued (world.mailbox.push world.signals.fired? value none)
  | .tryPush value =>
    if world.mailbox.isFull then (world, .full value)
    else world.issued (world.mailbox.push world.signals.fired? value none)
  | .pushWith value token =>
    world.issued (world.mailbox.push world.signals.fired? value (some token))
  | .take => world.issued (world.mailbox.take world.signals.fired? none)
  | .takeWith token => world.issued (world.mailbox.take world.signals.fired? (some token))
  | .wait => world.issued (world.mailbox.wait world.signals.fired?)
  | .awaitToken token => world.issued (world.mailbox.awaitToken world.signals.fired? token)
  | .abandon request =>
    let (mailbox, wasPending) := world.mailbox.abandon request
    ({ world with mailbox := mailbox }, .abandoned wasPending)
  | .close => ({ world with mailbox := world.mailbox.close }, .silent)
  | .discard => ({ world with mailbox := world.mailbox.discard }, .silent)
  | .changeHandles change =>
    ({ world with mailbox := world.mailbox.changeHandles change }, .silent)
  | .rest => (world, .silent)
  | .newToken timeout =>
    ({ world with signals := world.signals.addToken timeout }, .made world.signals.tokens.length)
  | .cancel token => ({ world with signals := world.signals.cancel token }, .silent)
  | .advance span => ({ world with signals := world.signals.advance span }, .silent)
  | .lookAtToken token => (world, .token world.signals.tokens[token]? (world.signals.left? token))
  | .lookAtMailbox => (world, .counts world.mailbox.depth world.mailbox.discarded)

/-- A push that does not wait for a slot is an ordinary push where the queue has room. -/
theorem perform_tryPush (world : World α) (value : α) :
    world.perform (.tryPush value) =
      if world.mailbox.isFull then (world, .full value) else world.perform (.push value) :=
  rfl

/-- One operation. Nothing happens if there is no handle that it goes through. -/
def operate (world : World α) (operation : Operation α) : World α × Reply α :=
  if operation.isAvailable world.mailbox.handles then world.perform operation
  else (world, .unavailable)

/-- Operations one after the other. -/
def operateAll (world : World α) : List (Operation α) → World α × List (Reply α)
  | [] => (world, [])
  | operation :: rest =>
    let (after, reply) := world.operate operation
    let (final, replies) := after.operateAll rest
    (final, reply :: replies)

/-- The mailbox comes to rest. -/
def settle (world : World α) : World α × Settled α :=
  let (mailbox, settled) := world.mailbox.settle world.signals.fired?
  ({ world with mailbox := mailbox }, settled)

/-- What a step tells. -/
structure Report (α : Type) where
  replies : List (Reply α)
  settled : Settled α

/-- A step: operations in a row, after which the mailbox comes to rest. -/
def step (world : World α) (operations : List (Operation α)) : World α × Report α :=
  let (operated, replies) := world.operateAll operations
  let (final, settled) := operated.settle
  (final, ⟨replies, settled⟩)

/-- Steps one after the other, with their reports. -/
def run (world : World α) : List (List (Operation α)) → World α × List (Report α)
  | [] => (world, [])
  | operations :: rest =>
    let (after, report) := world.step operations
    let (final, reports) := after.run rest
    (final, report :: reports)

end World

end CommandScript.Mailbox
