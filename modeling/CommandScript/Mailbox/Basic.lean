import CommandScript.Mailbox.Actor
import CommandScript.Mailbox.Signals

/-!
# Mailboxes

A mailbox is an actor behind three request queues, for pushes, takes and waits, of a fixed number of
slots each, and an unbounded queue for control. A push that finds its queue full is set aside; a
take or a wait that does stands in line for a slot. A client polls its request: it then enters the
queue if it is its turn, completes if it has been answered, and gives up if its token has fired.

Clients reach a mailbox through handles. Only writers can push and make control requests. When the
last writer is gone, the actor finds the end of the control queue behind the requests in it; it then
closes the input and does not look for control requests any more. Readers may still drain the
buffer.

A mailbox settles by polling all pending requests and serving the queues, in turns, until nothing is
left in line.
-/

namespace CommandScript

open Mailbox

/-- A request whose client has not completed, and the token that makes it give up. -/
structure Mailbox.Pending where
  id : RequestId
  token : Option TokenId
deriving DecidableEq, Repr

/-- What is told to the actor before all requests. -/
inductive Mailbox.Control where
  | close
  | discard
deriving DecidableEq, Repr

/-- A queue of takes or of waits: the requests that have a slot, and those that stand in line for
one. -/
structure Mailbox.ReadQueue where
  seated : List RequestId
  line : List RequestId
deriving DecidableEq, Repr

/-- The number of handles that clients have. -/
structure Mailbox.Handles where
  /-- Handles that can do everything. -/
  writers : Nat
  /-- Handles that can only take and wait. -/
  readers : Nat
deriving DecidableEq, Repr

/-- How the number of handles changes. A reader can be made from any handle. -/
inductive Mailbox.HandleChange where
  | cloneWriter
  | dropWriter
  | newReader
  | dropReader
deriving DecidableEq, Repr

/-- A mailbox: its actor, the queues before it, and the requests that have not completed. -/
structure Mailbox (α : Type) where
  actor : Actor α
  /-- The number of requests that each queue holds. -/
  slots : Nat
  control : List Control
  pushes : List (Item α)
  takes : ReadQueue
  waits : ReadQueue
  /-- Pushes set aside because their queue was full. -/
  overflow : List (Item α)
  pending : List Pending
  /-- Answers that their clients have not seen yet. -/
  answers : List (RequestId × Answer α)
  nextRequest : RequestId
  handles : Handles
  /-- The actor still looks for control requests. -/
  attending : Bool
  slots_pos : 0 < slots

namespace Mailbox

variable {α : Type}

/-! ## Handles -/

namespace Handles

/-- The one handle that comes with a new mailbox. -/
def first : Handles :=
  ⟨1, 0⟩

/-- There is a handle that the change goes through. -/
def allow (handles : Handles) : HandleChange → Bool
  | .cloneWriter => 0 < handles.writers
  | .dropWriter => 0 < handles.writers
  | .newReader => 0 < handles.writers + handles.readers
  | .dropReader => 0 < handles.readers

/-- The handles after a change. -/
def change (handles : Handles) : HandleChange → Handles
  | .cloneWriter => { handles with writers := handles.writers + 1 }
  | .dropWriter => { handles with writers := handles.writers - 1 }
  | .newReader => { handles with readers := handles.readers + 1 }
  | .dropReader => { handles with readers := handles.readers - 1 }

end Handles

/-! ## Queues of takes and waits -/

namespace ReadQueue

/-- Nobody has a slot and nobody stands in line. -/
def empty : ReadQueue :=
  ⟨[], []⟩

/-- A request stands at the end of the line. -/
def join (queue : ReadQueue) (request : RequestId) : ReadQueue :=
  { queue with line := queue.line ++ [request] }

/-- A request leaves the line. -/
def leave (queue : ReadQueue) (request : RequestId) : ReadQueue :=
  { queue with line := queue.line.filter fun other => other ≠ request }

/-- All requests that have a slot are served. -/
def serve (queue : ReadQueue) : ReadQueue :=
  { queue with seated := [] }

/-- The first request in line gets a slot if there is a free one, and leaves the line if nobody
serves the queue any more. The last part says whether it was turned away. -/
def enter (queue : ReadQueue) (slots : Nat) (closed : Bool) (request : RequestId) :
    ReadQueue × Bool :=
  match queue.line with
  | [] => (queue, false)
  | first :: rest =>
    if first ≠ request then (queue, false)
    else if closed then ({ queue with line := rest }, true)
    else if queue.seated.length < slots then (⟨queue.seated ++ [request], rest⟩, false)
    else (queue, false)

end ReadQueue

/-! ## Answers and outcomes -/

/-- How a request ends. -/
abbrev Outcome (α : Type) : Type :=
  Except Failure (Answer α)

/-- How a request ends that gets an answer. -/
def Answer.outcome : Answer α → Outcome α
  | .notRunning => .error .notRunning
  | answer => .ok answer

/-- The value that an answer hands over. -/
def Answer.value? : Answer α → Option α
  | .delivered item => some item.value
  | _ => none

/-- A mailbox without requests; a number of slots of zero counts as one. -/
def new (capacity : Nat) (policy : Policy) (slots : Nat) : Mailbox α where
  actor := Actor.new capacity policy
  slots := atLeastOne slots
  control := []
  pushes := []
  takes := .empty
  waits := .empty
  overflow := []
  pending := []
  answers := []
  nextRequest := 0
  handles := .first
  attending := true
  slots_pos := atLeastOne_pos slots

/-- The number of buffered items that the actor has published. -/
def depth (mailbox : Mailbox α) : Nat :=
  mailbox.actor.depth

/-- The number of items lost to overflow that the actor has published. -/
def discarded (mailbox : Mailbox α) : Nat :=
  mailbox.actor.discarded

/-- The mailbox as a diagnostic shows it. -/
def inspected (depth discarded : Nat) : String :=
  "Mailbox \x7b depth: " ++ toString depth ++ ", discarded: " ++ toString discarded ++ " \x7d"

/-- The reading side of a mailbox as a diagnostic shows it. -/
def readerInspected (depth : Nat) : String :=
  "MailboxReader \x7b depth: " ++ toString depth ++ " \x7d"

/-! ## Clients -/

/-- The client of a request still listens. -/
def listening (mailbox : Mailbox α) (request : RequestId) : Bool :=
  mailbox.pending.any fun pending => pending.id = request

/-- The request has been answered. -/
def record (mailbox : Mailbox α) (request : RequestId) (answer : Answer α) : Mailbox α :=
  { mailbox with answers := mailbox.answers ++ [(request, answer)] }

/-- The mailbox without what it keeps for the client of a request. A request that is in a queue or
with the actor stays there and is passed over later. -/
def forget (mailbox : Mailbox α) (request : RequestId) : Mailbox α :=
  { mailbox with
    pending := mailbox.pending.filter fun pending => pending.id ≠ request
    takes := mailbox.takes.leave request
    waits := mailbox.waits.leave request
    answers := mailbox.answers.filter fun entry => entry.1 ≠ request }

/-- The client gives up a request. -/
def abandon (mailbox : Mailbox α) (request : RequestId) : Mailbox α × Bool :=
  (mailbox.forget request, mailbox.listening request)

/-- A request that stands in line enters its queue if it is its turn, and fails if the actor has
ended. -/
def enter (mailbox : Mailbox α) (request : RequestId) : Mailbox α :=
  let (takes, takeFails) := mailbox.takes.enter mailbox.slots mailbox.actor.ended request
  let (waits, waitFails) := mailbox.waits.enter mailbox.slots mailbox.actor.ended request
  let entered := { mailbox with takes := takes, waits := waits }
  if takeFails || waitFails then entered.record request .notRunning else entered

/-- One look of a client at its request: an answer ends it, and otherwise a token that has fired. -/
def poll (fired? : TokenId → Option Failure) (mailbox : Mailbox α) (pending : Pending) :
    Mailbox α × Option (Outcome α) :=
  let entered := mailbox.enter pending.id
  match entered.answers.lookup pending.id with
  | some answer => (entered.forget pending.id, some answer.outcome)
  | none =>
    match pending.token.bind fired? with
    | some failure => (entered.forget pending.id, some (.error failure))
    | none => (entered, none)

/-- A look at each of a list of requests, with those that ended. -/
def pollEach (fired? : TokenId → Option Failure) (mailbox : Mailbox α) :
    List Pending → Mailbox α × List (RequestId × Outcome α)
  | [] => (mailbox, [])
  | pending :: rest =>
    let (after, ended) := mailbox.poll fired? pending
    let (final, more) := after.pollEach fired? rest
    match ended with
    | some outcome => (final, (pending.id, outcome) :: more)
    | none => (final, more)

/-- A look at all requests in the order in which they were issued. -/
def pollAll (fired? : TokenId → Option Failure) (mailbox : Mailbox α) :
    Mailbox α × List (RequestId × Outcome α) :=
  mailbox.pollEach fired? mailbox.pending

/-! ## Issuing requests -/

/-- What a client is told when it issues a request: its number, and how it ended if it did at
once. -/
structure Issue (α : Type) where
  id : RequestId
  outcome : Option (Outcome α)

/-- Registers a request, puts it where it belongs, and looks at it for the first time. -/
def issue (fired? : TokenId → Option Failure) (mailbox : Mailbox α) (token : Option TokenId)
    (put : Mailbox α → RequestId → Mailbox α) : Mailbox α × Issue α :=
  let id := mailbox.nextRequest
  let pending : Pending := ⟨id, token⟩
  let registered :=
    { mailbox with nextRequest := id + 1, pending := mailbox.pending ++ [pending] }
  let (after, outcome) := (put registered id).poll fired? pending
  (after, ⟨id, outcome⟩)

/-- Puts a push into its queue, or aside if the queue is full; it fails if the actor has ended. -/
def putPush (value : α) (mailbox : Mailbox α) (request : RequestId) : Mailbox α :=
  if mailbox.actor.ended then mailbox.record request .notRunning
  else if mailbox.pushes.length < mailbox.slots then
    { mailbox with pushes := mailbox.pushes ++ [⟨request, value⟩] }
  else { mailbox with overflow := mailbox.overflow ++ [⟨request, value⟩] }

/-- Puts a take at the end of its line. -/
def putTake (mailbox : Mailbox α) (request : RequestId) : Mailbox α :=
  { mailbox with takes := mailbox.takes.join request }

/-- Puts a wait at the end of its line. -/
def putWait (mailbox : Mailbox α) (request : RequestId) : Mailbox α :=
  { mailbox with waits := mailbox.waits.join request }

/-- Issues a push. -/
def push (fired? : TokenId → Option Failure) (mailbox : Mailbox α) (value : α)
    (token : Option TokenId) : Mailbox α × Issue α :=
  mailbox.issue fired? token (putPush value)

/-- The queue of pushes has no room, and the actor still serves it. -/
def isFull (mailbox : Mailbox α) : Bool :=
  !mailbox.actor.ended && mailbox.slots ≤ mailbox.pushes.length

/-- Issues a take. -/
def take (fired? : TokenId → Option Failure) (mailbox : Mailbox α) (token : Option TokenId) :
    Mailbox α × Issue α :=
  mailbox.issue fired? token putTake

/-- Issues a request to be told when there is an item. -/
def wait (fired? : TokenId → Option Failure) (mailbox : Mailbox α) : Mailbox α × Issue α :=
  mailbox.issue fired? none putWait

/-- Issues a request that only a token can end. -/
def awaitToken (fired? : TokenId → Option Failure) (mailbox : Mailbox α) (token : TokenId) :
    Mailbox α × Issue α :=
  mailbox.issue fired? (some token) fun mailbox _ => mailbox

/-- Asks for the input to be closed. -/
def close (mailbox : Mailbox α) : Mailbox α :=
  { mailbox with control := mailbox.control ++ [.close] }

/-- Asks for the mailbox to be given up. -/
def discard (mailbox : Mailbox α) : Mailbox α :=
  { mailbox with control := mailbox.control ++ [.discard] }

/-- A handle is made or dropped. -/
def changeHandles (mailbox : Mailbox α) (change : HandleChange) : Mailbox α :=
  { mailbox with handles := mailbox.handles.change change }

/-! ## Serving -/

/-- What the actor is told by a control request. -/
def Control.event : Control → Event α
  | .close => .close
  | .discard => .discard

/-- The actor looks for control requests and does not meet the end of their queue. -/
def attends (mailbox : Mailbox α) : Bool :=
  mailbox.attending && 0 < mailbox.handles.writers

/-- What the actor finds to do in the control queue while it looks there: what writers have asked
for, and to close the input at the end of the queue, which it meets when no writer is left. -/
def orders (mailbox : Mailbox α) : List Control :=
  if mailbox.attending then
    mailbox.control ++ if mailbox.handles.writers = 0 then [.close] else []
  else []

/-- What the actor finds in its queues, in the order in which it serves them. -/
def queued (mailbox : Mailbox α) : List (Event α) :=
  mailbox.orders.map Control.event ++
    mailbox.pushes.map (fun item => .push item (mailbox.listening item.push)) ++
    mailbox.takes.seated.map (fun request => .take request (mailbox.listening request)) ++
    mailbox.waits.seated.map .wait

/-- The answer that a notice brings to a client. -/
def Notice.answer? : Notice α → Option (RequestId × Answer α)
  | .answered request answer => some (request, answer)
  | _ => none

/-- The actor serves its queues until they are empty. If it meets the end of the control queue, it
does not look there again. -/
def serveQueues (mailbox : Mailbox α) : Mailbox α × List (Notice α) :=
  let (actor, notices) :=
    mailbox.actor.run (mailbox.queued.map fun event => (mailbox.listening, event))
  ({ mailbox with
      actor := actor
      control := []
      attending := mailbox.attends
      pushes := []
      takes := mailbox.takes.serve
      waits := mailbox.waits.serve
      answers := mailbox.answers ++ notices.filterMap Notice.answer? }, notices)

/-- As many of the pushes set aside as there are slots enter their queue and are served, and so on
for the given number of rounds. -/
def serveOverflow (mailbox : Mailbox α) : Nat → Mailbox α × List (Notice α)
  | 0 => (mailbox, [])
  | rounds + 1 =>
    if mailbox.overflow.isEmpty then (mailbox, [])
    else
      let (served, notices) :=
        { mailbox with
          pushes := mailbox.overflow.take mailbox.slots
          overflow := mailbox.overflow.drop mailbox.slots }.serveQueues
      let (final, more) := served.serveOverflow rounds
      (final, notices ++ more)

/-- The actor serves its queues and then the pushes set aside. -/
def serve (mailbox : Mailbox α) : Mailbox α × List (Notice α) :=
  let (served, notices) := mailbox.serveQueues
  let (final, more) := served.serveOverflow served.overflow.length
  (final, notices ++ more)

/-! ## Settling -/

/-- What happens until nothing changes any more: the requests that ended, and the notices. -/
structure Settled (α : Type) where
  done : List (RequestId × Outcome α)
  notices : List (Notice α)

/-- All requests are looked at and the queues are served, for the given number of rounds, and then
all requests are looked at once more. -/
def settleFor (fired? : TokenId → Option Failure) (mailbox : Mailbox α) :
    Nat → Mailbox α × Settled α
  | 0 =>
    let (final, done) := mailbox.pollAll fired?
    (final, ⟨done, []⟩)
  | rounds + 1 =>
    let (polled, done) := mailbox.pollAll fired?
    let (served, notices) := polled.serve
    let (final, rest) := served.settleFor fired? rounds
    (final, ⟨done ++ rest.done, notices ++ rest.notices⟩)

/-- Requests in the order of their numbers. -/
def byNumber (done : List (RequestId × Outcome α)) : List (RequestId × Outcome α) :=
  done.mergeSort fun a b => a.1 ≤ b.1

/-- The mailbox comes to rest. Every round lets at least one request in each line enter its queue,
so that one round more than there are requests in line is enough. -/
def settle (fired? : TokenId → Option Failure) (mailbox : Mailbox α) : Mailbox α × Settled α :=
  let (final, settled) :=
    mailbox.settleFor fired? (mailbox.takes.line.length + mailbox.waits.line.length + 1)
  (final, { settled with done := byNumber settled.done })

end Mailbox

end CommandScript
