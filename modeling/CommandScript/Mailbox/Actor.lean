import CommandScript.Mailbox.Policy

/-!
# The actor behind a mailbox

The actor holds the buffer of a mailbox and the requests that it cannot answer yet: pushes for which
there is no room, takes for which there is no item, and requests to be told when there is one. It
handles one event after the other. What it does besides changing its own state is told by notices:
the answers that reach a client, the items lost to overflow, and the items cleared away.

A client may give up at any time, and then no answer reaches it. Which clients still listen is given
to every handler; an answer that nobody listens to is undone where it can be.
-/

namespace CommandScript.Mailbox

/-- The number, or one in the place of zero. -/
def atLeastOne (number : Nat) : Nat :=
  max number 1

theorem atLeastOne_pos (number : Nat) : 0 < atLeastOne number :=
  Nat.lt_of_lt_of_le Nat.zero_lt_one (Nat.le_max_right number 1)

/-- Requests are numbered in the order in which they are issued. -/
abbrev RequestId : Type := Nat

/-- A pushed value and the request that pushed it. -/
structure Item (α : Type) where
  push : RequestId
  value : α
deriving DecidableEq, Repr

/-- What the actor answers. -/
inductive Answer (α : Type) where
  /-- The pushed value has been accepted. -/
  | accepted
  /-- The oldest item, handed over. -/
  | delivered (item : Item α)
  /-- There is an item to take. -/
  | ready
  /-- The mailbox no longer does what is asked. -/
  | notRunning
deriving DecidableEq, Repr

/-- What happens outside the actor when it handles an event. -/
inductive Notice (α : Type) where
  /-- An answer reaches the client of a request. -/
  | answered (request : RequestId) (answer : Answer α)
  /-- An item is lost to overflow, by the push of a request. -/
  | evicted (item : Item α) (overflowing : RequestId)
  /-- An item is thrown away with the whole buffer. -/
  | cleared (item : Item α)
deriving DecidableEq, Repr

/-- The state of an actor. The depth and the count of discarded items are the numbers it
publishes. -/
structure Actor (α : Type) where
  capacity : Nat
  policy : Policy
  buffer : List (Item α)
  /-- Pushes that wait for room. -/
  blocked : List (Item α)
  /-- Takes that wait for an item. -/
  takers : List RequestId
  /-- Requests that wait for the presence of an item. -/
  waiters : List RequestId
  /-- No push is accepted any more. -/
  closed : Bool
  /-- The actor has stopped for good. -/
  ended : Bool
  depth : Nat
  discarded : Nat
  capacity_pos : 0 < capacity

/-- What the actor is told. A push and a take come with what a first look at their clients says. -/
inductive Event (α : Type) where
  | push (item : Item α) (present : Bool)
  | take (request : RequestId) (present : Bool)
  | wait (request : RequestId)
  | close
  | discard
deriving DecidableEq, Repr

namespace Actor

variable {α : Type}

/-- An actor with an empty buffer; a capacity of zero counts as one. -/
def new (capacity : Nat) (policy : Policy) : Actor α where
  capacity := atLeastOne capacity
  policy := policy
  buffer := []
  blocked := []
  takers := []
  waiters := []
  closed := false
  ended := false
  depth := 0
  discarded := 0
  capacity_pos := atLeastOne_pos capacity

/-- An empty buffer has room. -/
theorem room_of_empty (actor : Actor α) (empty : actor.buffer = []) :
    actor.buffer.length < actor.capacity := by
  rw [empty]
  exact actor.capacity_pos

/-- A full buffer is not empty, since a mailbox has room for at least one item. -/
theorem occupied_of_full (actor : Actor α) (full : ¬ actor.buffer.length < actor.capacity) :
    actor.buffer ≠ [] :=
  fun empty => full (actor.room_of_empty empty)

/-- The actor with another buffer, whose size it publishes. -/
def withBuffer (actor : Actor α) (buffer : List (Item α)) : Actor α :=
  { actor with buffer := buffer, depth := buffer.length }

/-- The actor after one more item is lost to overflow. -/
def countDrop (actor : Actor α) : Actor α :=
  { actor with discarded := actor.discarded + 1 }

/-- The answer to a request, if its client listens. -/
def answer (listening : RequestId → Bool) (request : RequestId) (reply : Answer α) :
    List (Notice α) :=
  if listening request then [.answered request reply] else []

/-- The same answer to several requests, in order. -/
def answerAll (listening : RequestId → Bool) (requests : List RequestId) (reply : Answer α) :
    List (Notice α) :=
  requests.flatMap fun request => answer listening request reply

/-- Buffers an item and acknowledges its push. If nobody listens the item is taken back. The last
part says whether it stayed. -/
def accept (listening : RequestId → Bool) (actor : Actor α) (item : Item α) :
    Actor α × List (Notice α) × Bool :=
  let appended := actor.withBuffer (actor.buffer ++ [item])
  if listening item.push then (appended, [.answered item.push .accepted], true)
  else (appended.withBuffer appended.buffer.dropLast, [], false)

/-- The oldest item and the items behind it. -/
def splitOldest (buffer : List (Item α)) : Option (Item α × List (Item α)) :=
  match buffer with
  | [] => none
  | oldest :: rest => some (oldest, rest)

/-- The newest item and the items before it. -/
def splitNewest (buffer : List (Item α)) : Option (Item α × List (Item α)) :=
  buffer.getLast?.map fun newest => (newest, buffer.dropLast)

/-- Accepts an item in the place of the oldest or of the newest one. If the item does not stay, the
one that made room returns to its place. -/
def acceptEvicting (listening : RequestId → Bool) (actor : Actor α) (item : Item α)
    (oldest : Bool) : Actor α × List (Notice α) :=
  match if oldest then splitOldest actor.buffer else splitNewest actor.buffer with
  | none =>
    let (actor, notices, stayed) := actor.accept listening item
    (if stayed then actor.countDrop else actor, notices)
  | some (evicted, rest) =>
    let (after, notices, stayed) := (actor.withBuffer rest).accept listening item
    if stayed then (after.countDrop, .evicted evicted item.push :: notices)
    else
      (after.withBuffer (if oldest then evicted :: after.buffer else after.buffer ++ [evicted]), [])

/-- Moves blocked pushes into free places, in order; a push that nobody listens to is passed
over. -/
def fill (listening : RequestId → Bool) (actor : Actor α) :
    List (Item α) → Actor α × List (Notice α)
  | [] => ({ actor with blocked := [] }, [])
  | item :: rest =>
    if actor.buffer.length < actor.capacity then
      if listening item.push then
        let (after, notices, _) := actor.accept listening item
        let (final, more) := after.fill listening rest
        (final, notices ++ more)
      else actor.fill listening rest
    else ({ actor with blocked := item :: rest }, [])

/-- Hands the oldest item to a taker, or leaves it in its place if the taker does not listen. -/
def deliver (listening : RequestId → Bool) (actor : Actor α) (taker : RequestId) :
    Actor α × List (Notice α) :=
  match actor.buffer with
  | [] => (actor, [])
  | oldest :: rest =>
    let after := actor.withBuffer rest
    if listening taker then (after, [.answered taker (.delivered oldest)])
    else (after.withBuffer (oldest :: after.buffer), [])

/-- Tells all waiters that there is an item. -/
def wake (listening : RequestId → Bool) (actor : Actor α) : Actor α × List (Notice α) :=
  ({ actor with waiters := [] }, answerAll listening actor.waiters .ready)

/-- Moves blocked pushes into free places and hands items to takers, until neither can go on. -/
def serveTakers (listening : RequestId → Bool) (actor : Actor α) :
    List RequestId → Actor α × List (Notice α)
  | [] =>
    let (filled, accepted) := actor.fill listening actor.blocked
    if filled.buffer.isEmpty then ({ filled with takers := [] }, accepted)
    else
      let (woken, told) := filled.wake listening
      ({ woken with takers := [] }, accepted ++ told)
  | taker :: rest =>
    let (filled, accepted) := actor.fill listening actor.blocked
    if filled.buffer.isEmpty then ({ filled with takers := taker :: rest }, accepted)
    else
      let (woken, told) := filled.wake listening
      let (after, delivered) := woken.deliver listening taker
      let (final, more) := after.serveTakers listening rest
      (final, accepted ++ told ++ delivered ++ more)

/-- Fails all takers and waiters. -/
def failWaiting (listening : RequestId → Bool) (actor : Actor α) : Actor α × List (Notice α) :=
  ({ actor with takers := [], waiters := [] },
    answerAll listening actor.takers .notRunning ++ answerAll listening actor.waiters .notRunning)

/-- Brings the actor to rest: pushes and takes go on as far as they can, and at the end of a closed
mailbox nobody is left waiting. -/
def settle (listening : RequestId → Bool) (actor : Actor α) : Actor α × List (Notice α) :=
  let (served, notices) := actor.serveTakers listening actor.takers
  if served.buffer.isEmpty && served.closed then
    let (final, more) := served.failWaiting listening
    (final, notices ++ more)
  else (served, notices)

/-- A push on a full buffer is treated as the policy says. -/
def overflow (listening : RequestId → Bool) (actor : Actor α) (item : Item α) :
    Actor α × List (Notice α) :=
  match actor.policy with
  | .block => ({ actor with blocked := actor.blocked ++ [item] }, [])
  | .dropHead => actor.acceptEvicting listening item true
  | .dropIncoming =>
    (actor.countDrop, .evicted item item.push :: answer listening item.push .accepted)
  | .dropTail => actor.acceptEvicting listening item false

/-- A push that is looked at. -/
def onPush (listening : RequestId → Bool) (actor : Actor α) (item : Item α) :
    Actor α × List (Notice α) :=
  if actor.closed then (actor, answer listening item.push .notRunning)
  else
    let (after, notices) :=
      if actor.buffer.length < actor.capacity then
        let (after, notices, _) := actor.accept listening item
        (after, notices)
      else actor.overflow listening item
    let (final, more) := after.settle listening
    (final, notices ++ more)

/-- A take that is looked at. -/
def onTake (listening : RequestId → Bool) (actor : Actor α) (request : RequestId) :
    Actor α × List (Notice α) :=
  { actor with takers := actor.takers ++ [request] }.settle listening

/-- A request to be told when there is an item. -/
def onWait (listening : RequestId → Bool) (actor : Actor α) (request : RequestId) :
    Actor α × List (Notice α) :=
  if !actor.buffer.isEmpty then (actor, answer listening request .ready)
  else if actor.closed then (actor, answer listening request .notRunning)
  else ({ actor with waiters := actor.waiters ++ [request] }, [])

/-- The input is closed: blocked pushes fail, buffered items stay. -/
def close (listening : RequestId → Bool) (actor : Actor α) : Actor α × List (Notice α) :=
  if actor.closed then (actor, [])
  else
    let failed := answerAll listening (actor.blocked.map Item.push) .notRunning
    let (final, more) := { actor with closed := true, blocked := [] }.settle listening
    (final, failed ++ more)

/-- The mailbox is given up: its items are cleared away, and whoever waits for anything fails. -/
def discard (listening : RequestId → Bool) (actor : Actor α) : Actor α × List (Notice α) :=
  let failed := answerAll listening (actor.blocked.map Item.push) .notRunning
  let emptied := { actor.withBuffer [] with blocked := [], ended := true }
  let (final, more) := emptied.failWaiting listening
  (final, actor.buffer.map .cleared ++ failed ++ more)

/-- Once the actor has ended, every request fails. -/
def afterEnd (listening : RequestId → Bool) : Event α → List (Notice α)
  | .push item _ => answer listening item.push .notRunning
  | .take request _ => answer listening request .notRunning
  | .wait request => answer listening request .notRunning
  | .close => []
  | .discard => []

/-- One event. A push or a take whose client is no longer present is passed over. -/
def handle (listening : RequestId → Bool) (actor : Actor α) (event : Event α) :
    Actor α × List (Notice α) :=
  if actor.ended then (actor, afterEnd listening event)
  else
    match event with
    | .push item present => if present then actor.onPush listening item else (actor, [])
    | .take request present => if present then actor.onTake listening request else (actor, [])
    | .wait request => actor.onWait listening request
    | .close => actor.close listening
    | .discard => actor.discard listening

/-- Events one after the other, each with the clients that listen at its time. -/
def run (actor : Actor α) :
    List ((RequestId → Bool) × Event α) → Actor α × List (Notice α)
  | [] => (actor, [])
  | (listening, event) :: rest =>
    let (after, notices) := actor.handle listening event
    let (final, more) := after.run rest
    (final, notices ++ more)

/-- A run may be cut in two. -/
theorem run_append (actor : Actor α) (front back : List ((RequestId → Bool) × Event α)) :
    actor.run (front ++ back) =
      (((actor.run front).1.run back).1,
        (actor.run front).2 ++ ((actor.run front).1.run back).2) := by
  induction front generalizing actor with
  | nil => simp [run]
  | cons event rest ih =>
    obtain ⟨listening, event⟩ := event
    simp [run, ih]

/-- An actor that has ended does nothing but refuse. -/
theorem handle_of_ended (listening : RequestId → Bool) {actor : Actor α} (event : Event α)
    (hended : actor.ended = true) :
    actor.handle listening event = (actor, afterEnd listening event) := by
  simp [handle, hended]

end Actor

end CommandScript.Mailbox
