import CommandScript.Proofs.Mailbox.Bookkeeping

/-!
# What the actor of a mailbox is told

A mailbox hands its actor the events of its queues while it comes to rest. Put together over a run,
they are a run of the actor: it leaves the state that the mailbox has and gives the notices of its
history (`CommandScript.Mailbox.World.run_told`).

Once a mailbox has come to rest, all its queues are empty and nobody stands in line
(`CommandScript.Mailbox.settle_served`).
-/

namespace CommandScript.Mailbox

variable {α : Type}

open History

/-- What an actor is told, in order, each with the clients that listen at its time. -/
abbrev Told (α : Type) : Type :=
  List ((RequestId → Bool) × Event α)

/-- What the actor finds in its queues. -/
def told (mailbox : Mailbox α) : Told α :=
  mailbox.queued.map fun event => (mailbox.listening, event)

/-- As many of the pushes set aside as there are slots enter their queue. -/
def letIn (mailbox : Mailbox α) : Mailbox α :=
  { mailbox with
    pushes := mailbox.overflow.take mailbox.slots
    overflow := mailbox.overflow.drop mailbox.slots }

/-- What the actor is told of the pushes set aside, in the given number of rounds. -/
def toldAside (mailbox : Mailbox α) : Nat → Told α
  | 0 => []
  | rounds + 1 =>
    if mailbox.overflow.isEmpty then []
    else mailbox.letIn.told ++ mailbox.letIn.serveQueues.1.toldAside rounds

/-- What the actor is told while it serves its queues and the pushes set aside. -/
def toldServing (mailbox : Mailbox α) : Told α :=
  mailbox.told ++ mailbox.serveQueues.1.toldAside mailbox.serveQueues.1.overflow.length

/-- What the actor is told in the given number of rounds. -/
def toldSettling (fired? : TokenId → Option Failure) (mailbox : Mailbox α) : Nat → Told α
  | 0 => []
  | rounds + 1 =>
    (mailbox.pollAll fired?).1.toldServing ++
      (mailbox.pollAll fired?).1.serve.1.toldSettling fired? rounds

/-- The number of rounds in which a mailbox comes to rest. -/
def rounds (mailbox : Mailbox α) : Nat :=
  mailbox.takes.line.length + mailbox.waits.line.length + 1

/-- What the actor is told in a run. -/
def World.told (world : World α) : List (List (Operation α)) → Told α
  | [] => []
  | operations :: rest =>
    (world.operateAll operations).1.mailbox.toldSettling
        (world.operateAll operations).1.signals.fired?
        (world.operateAll operations).1.mailbox.rounds ++
      (world.step operations).1.told rest

/-! ## Looking and issuing leave the queues of the actor -/

/-- From one mailbox to another the actor and its control queue are the same. -/
structure SameActor (before after : Mailbox α) : Prop where
  actor : after.actor = before.actor
  control : after.control = before.control
  handles : after.handles = before.handles
  attending : after.attending = before.attending

theorem SameActor.trans {before middle after : Mailbox α} (first : SameActor before middle)
    (second : SameActor middle after) : SameActor before after :=
  ⟨second.actor.trans first.actor, second.control.trans first.control,
    second.handles.trans first.handles, second.attending.trans first.attending⟩

/-- The actor finds the same in its control queue. -/
theorem SameActor.orders {before after : Mailbox α} (same : SameActor before after) :
    after.orders = before.orders := by
  rw [Mailbox.orders, same.attending, same.control, same.handles]
  rfl

/-- The same actor goes on looking for control requests, or does not. -/
theorem SameActor.attends {before after : Mailbox α} (same : SameActor before after) :
    after.attends = before.attends := by
  rw [Mailbox.attends, same.attending, same.handles]
  rfl

/-- From one mailbox to another nothing that the actor serves, or what it is, has changed; pushes
and requests may have come. -/
structure Unserved (before after : Mailbox α) : Prop extends SameActor before after where
  pushes : after.pushes = before.pushes
  overflow : after.overflow = before.overflow
  slots : after.slots = before.slots
  nextRequest : after.nextRequest = before.nextRequest

theorem Unserved.refl (mailbox : Mailbox α) : Unserved mailbox mailbox :=
  ⟨⟨rfl, rfl, rfl, rfl⟩, rfl, rfl, rfl, rfl⟩

theorem Unserved.trans {before middle after : Mailbox α} (first : Unserved before middle)
    (second : Unserved middle after) : Unserved before after :=
  ⟨first.toSameActor.trans second.toSameActor, second.pushes.trans first.pushes,
    second.overflow.trans first.overflow, second.slots.trans first.slots,
    second.nextRequest.trans first.nextRequest⟩

/-- To enter a queue serves nothing. -/
theorem enter_unserved (mailbox : Mailbox α) (request : RequestId) :
    Unserved mailbox (mailbox.enter request) := by
  unfold enter
  generalize mailbox.takes.enter mailbox.slots mailbox.actor.ended request = taking
  generalize mailbox.waits.enter mailbox.slots mailbox.actor.ended request = waiting
  dsimp only
  split <;> exact ⟨⟨rfl, rfl, rfl, rfl⟩, rfl, rfl, rfl, rfl⟩

/-- A look at a request serves nothing. -/
theorem poll_unserved (fired? : TokenId → Option Failure) (mailbox : Mailbox α)
    (pending : Pending) : Unserved mailbox (mailbox.poll fired? pending).1 := by
  have entered := mailbox.enter_unserved pending.id
  have left : Unserved mailbox ((mailbox.enter pending.id).forget pending.id) :=
    entered.trans ⟨⟨rfl, rfl, rfl, rfl⟩, rfl, rfl, rfl, rfl⟩
  rcases poll_cases fired? mailbox pending with
    ⟨answer, -, polled⟩ | ⟨failure, -, -, polled⟩ | ⟨-, -, polled⟩
  · exact polled ▸ left
  · exact polled ▸ left
  · exact polled ▸ entered

/-- What every look at a request keeps is kept by looking at several. -/
theorem pollEach_induct (holds : Mailbox α → Prop) {fired? : TokenId → Option Failure}
    (poll : ∀ mailbox pending, holds mailbox → holds (mailbox.poll fired? pending).1)
    {mailbox : Mailbox α} (start : holds mailbox) (requests : List Pending) :
    holds (mailbox.pollEach fired? requests).1 := by
  induction requests generalizing mailbox with
  | nil => exact start
  | cons pending rest ih =>
      rw [pollEach_cons]
      exact ih (poll mailbox pending start)

theorem pollEach_unserved (fired? : TokenId → Option Failure) (mailbox : Mailbox α)
    (requests : List Pending) : Unserved mailbox (mailbox.pollEach fired? requests).1 :=
  pollEach_induct _
    (fun middle pending unserved => unserved.trans (middle.poll_unserved fired? pending))
    (.refl mailbox) requests

/-- A look at all requests serves nothing. -/
theorem pollAll_unserved (fired? : TokenId → Option Failure) (mailbox : Mailbox α) :
    Unserved mailbox (mailbox.pollAll fired?).1 :=
  mailbox.pollEach_unserved fired? mailbox.pending

/-! ## A run of the actor -/

/-- What is told of the pushes set aside makes the actor do what it does. -/
theorem run_toldAside (mailbox : Mailbox α) (rounds : Nat) :
    mailbox.actor.run (mailbox.toldAside rounds) =
      ((mailbox.serveOverflow rounds).1.actor, (mailbox.serveOverflow rounds).2) := by
  induction rounds generalizing mailbox with
  | zero => rfl
  | succ rounds ih =>
      unfold toldAside serveOverflow
      split
      · rfl
      · rw [Actor.run_append]
        have served := ih mailbox.letIn.serveQueues.1
        have queues : mailbox.actor.run mailbox.letIn.told =
            (mailbox.letIn.serveQueues.1.actor, mailbox.letIn.serveQueues.2) := rfl
        rw [queues, served]
        rfl

/-- To serve a mailbox is to run its actor on what it is told. -/
theorem run_toldServing (mailbox : Mailbox α) :
    mailbox.actor.run mailbox.toldServing = (mailbox.serve.1.actor, mailbox.serve.2) := by
  have queues : mailbox.actor.run mailbox.told =
      (mailbox.serveQueues.1.actor, mailbox.serveQueues.2) := rfl
  rw [toldServing, Actor.run_append, queues, run_toldAside]
  rfl

/-- To settle a mailbox is to run its actor on what it is told. -/
theorem run_toldSettling (fired? : TokenId → Option Failure) (mailbox : Mailbox α) (rounds : Nat) :
    mailbox.actor.run (mailbox.toldSettling fired? rounds) =
      ((mailbox.settleFor fired? rounds).1.actor, (mailbox.settleFor fired? rounds).2.notices) := by
  induction rounds generalizing mailbox with
  | zero =>
      have polled := (mailbox.pollAll_unserved fired?).actor
      exact Prod.ext polled.symm rfl
  | succ rounds ih =>
      rw [toldSettling, Actor.run_append, ← (mailbox.pollAll_unserved fired?).actor,
        run_toldServing, ih]
      rfl

/-! ## What an operation leaves to the actor -/

/-- The control request that an operation has made according to its reply. -/
def Operation.control? : Operation α → Reply α → Option Control
  | .close, .silent => some .close
  | .discard, .silent => some .discard
  | _, _ => none

/-- Whoever asks for a discard, and may, makes a control request. -/
theorem Operation.control?_of_isDiscard {operation : Operation α} {reply : Reply α}
    (asks : operation.isDiscard reply = true) : operation.control? reply = some .discard := by
  unfold isDiscard at asks
  split at asks
  · rfl
  · cases asks

/-- The handles after an operation. -/
def Operation.handlesAfter (handles : Handles) : Operation α → Handles
  | .changeHandles change => if handles.allow change then handles.change change else handles
  | _ => handles

/-- From one mailbox to another the actor is the same, and an operation has left it something to
find in the control queue. -/
structure Operated (operation : Operation α) (reply : Reply α) (before after : Mailbox α) :
    Prop where
  actor : after.actor = before.actor
  control : after.control = before.control ++ (operation.control? reply).toList
  handles : after.handles = operation.handlesAfter before.handles
  attending : after.attending = before.attending
  /-- Only writers make control requests. -/
  writers : operation.control? reply ≠ none → 0 < before.handles.writers

/-- A push does not reach the actor yet. -/
theorem putPush_sameActor (value : α) (mailbox : Mailbox α) (request : RequestId) :
    SameActor mailbox (putPush value mailbox request) := by
  unfold putPush
  split
  · exact ⟨rfl, rfl, rfl, rfl⟩
  · split <;> exact ⟨rfl, rfl, rfl, rfl⟩

/-- A new request does not reach the actor yet. -/
theorem issue_sameActor {put : Mailbox α → RequestId → Mailbox α}
    (same : ∀ mailbox request, SameActor mailbox (put mailbox request))
    (fired? : TokenId → Option Failure) (mailbox : Mailbox α) (token : Option TokenId) :
    SameActor mailbox (mailbox.issue fired? token put).1 := by
  have registered : SameActor mailbox { mailbox with
      nextRequest := mailbox.nextRequest + 1
      pending := mailbox.pending ++ [⟨mailbox.nextRequest, token⟩] } := ⟨rfl, rfl, rfl, rfl⟩
  exact (registered.trans (same _ _)).trans (poll_unserved fired? _ _).toSameActor

/-- All that an operation leaves to the actor. What does not happen leaves it nothing. -/
theorem World.operate_operated (world : World α) (operation : Operation α) :
    Operated operation (world.operate operation).2 world.mailbox
      (world.operate operation).1.mailbox := by
  have issued {operation : Operation α} {reply : Reply α} {after : Mailbox α}
      (same : SameActor world.mailbox after) (nothing : operation.control? reply = none)
      (handles : operation.handlesAfter world.mailbox.handles = world.mailbox.handles) :
      Operated operation reply world.mailbox after := by
    refine ⟨same.actor, ?_, same.handles.trans handles.symm, same.attending, absurd nothing⟩
    rw [nothing, same.control]
    exact (List.append_nil _).symm
  have plain (token : Option TokenId) {put : Mailbox α → RequestId → Mailbox α}
      (same : ∀ mailbox request, SameActor mailbox (put mailbox request)) :=
    issue_sameActor same world.signals.fired? world.mailbox token
  have pushed (value : α) (token : Option TokenId) := plain token (putPush_sameActor value)
  have still := (Unserved.refl world.mailbox).toSameActor
  unfold World.operate
  split
  · rename_i available
    cases operation with
    | push value => exact issued (pushed value none) rfl rfl
    | tryPush value =>
        rw [World.perform_tryPush]
        split
        · exact issued still rfl rfl
        · exact issued (pushed value none) rfl rfl
    | pushWith value token => exact issued (pushed value (some token)) rfl rfl
    | take => exact issued (plain none fun _ _ => ⟨rfl, rfl, rfl, rfl⟩) rfl rfl
    | takeWith token => exact issued (plain (some token) fun _ _ => ⟨rfl, rfl, rfl, rfl⟩) rfl rfl
    | wait => exact issued (plain none fun _ _ => ⟨rfl, rfl, rfl, rfl⟩) rfl rfl
    | awaitToken token => exact issued (plain (some token) fun _ _ => ⟨rfl, rfl, rfl, rfl⟩) rfl rfl
    | abandon request => exact issued ⟨rfl, rfl, rfl, rfl⟩ rfl rfl
    | close => exact ⟨rfl, rfl, rfl, rfl, fun _ => of_decide_eq_true available⟩
    | discard => exact ⟨rfl, rfl, rfl, rfl, fun _ => of_decide_eq_true available⟩
    | changeHandles change =>
        exact ⟨rfl, (List.append_nil _).symm, (if_pos available).symm, rfl, absurd rfl⟩
    | _ => exact issued still rfl rfl
  · rename_i unavailable
    cases operation with
    | changeHandles change => exact issued still rfl (if_neg unavailable)
    | _ => exact issued still rfl rfl

/-- No operation reaches the actor before the mailbox settles. -/
theorem World.operateAll_actor (world : World α) (operations : List (Operation α)) :
    (world.operateAll operations).1.mailbox.actor = world.mailbox.actor := by
  induction operations generalizing world with
  | nil => rfl
  | cons operation rest ih =>
      exact (ih (world.operate operation).1).trans (world.operate_operated operation).actor

/-- There are no notices before the mailbox settles. -/
theorem ofOperations_notices (operations : List (Operation α)) (replies : List (Reply α)) :
    (ofOperations operations replies).notices = [] := by
  induction operations generalizing replies with
  | nil => rfl
  | cons operation rest ih =>
      cases replies with
      | nil => rfl
      | cons reply replies => exact ih replies

/-- What the actor is told in a run of a mailbox makes it do what it does there. -/
theorem World.run_told (world : World α) (steps : List (List (Operation α))) :
    world.mailbox.actor.run (world.told steps) =
      ((world.run steps).1.mailbox.actor, (ofRun steps (world.run steps).2).notices) := by
  induction steps generalizing world with
  | nil => rfl
  | cons operations rest ih =>
      rw [World.told, Actor.run_append, ← world.operateAll_actor operations, run_toldSettling]
      have later := ih (world.step operations).1
      have settled : (world.step operations).1.mailbox.actor =
          ((world.operateAll operations).1.mailbox.settleFor
            (world.operateAll operations).1.signals.fired?
            (world.operateAll operations).1.mailbox.rounds).1.actor := rfl
      rw [settled] at later
      rw [later]
      refine Prod.ext rfl ?_
      change _ = (ofOperations operations _).notices ++ _ ++ _
      rw [ofOperations_notices]
      rfl

/-! ## What is kept while a mailbox comes to rest -/

section Induct

variable {holds : Mailbox α → Told α → Prop} {fired? : TokenId → Option Failure}
  {mailbox : Mailbox α} {earlier : Told α}

/-- What serving the queues and letting pushes in keep is kept while the actor serves. -/
theorem serve_induct
    (serve : ∀ mailbox earlier, holds mailbox earlier →
      holds mailbox.serveQueues.1 (earlier ++ mailbox.told))
    (letIn : ∀ mailbox earlier, mailbox.pushes = [] → holds mailbox earlier →
      holds mailbox.letIn earlier)
    (start : holds mailbox earlier) :
    holds mailbox.serve.1 (earlier ++ mailbox.toldServing) := by
  have aside : ∀ (rounds : Nat) (mailbox : Mailbox α) (earlier : Told α), mailbox.pushes = [] →
      holds mailbox earlier →
      holds (mailbox.serveOverflow rounds).1 (earlier ++ mailbox.toldAside rounds) := by
    intro rounds
    induction rounds with
    | zero =>
        intro mailbox earlier _ kept
        exact (List.append_nil earlier).symm ▸ kept
    | succ rounds ih =>
        intro mailbox earlier idle kept
        unfold serveOverflow toldAside
        split
        · exact (List.append_nil earlier).symm ▸ kept
        · rw [← List.append_assoc]
          exact ih mailbox.letIn.serveQueues.1 _ rfl (serve _ _ (letIn mailbox earlier idle kept))
  rw [toldServing, ← List.append_assoc]
  exact aside _ mailbox.serveQueues.1 _ rfl (serve mailbox earlier start)

variable (holds earlier)

/-- What looking at requests, serving the queues and letting pushes in keep is kept while a mailbox
comes to rest. -/
theorem settleFor_induct
    (poll : ∀ mailbox earlier pending, holds mailbox earlier →
      holds (mailbox.poll fired? pending).1 earlier)
    (serve : ∀ mailbox earlier, holds mailbox earlier →
      holds mailbox.serveQueues.1 (earlier ++ mailbox.told))
    (letIn : ∀ mailbox earlier, mailbox.pushes = [] → holds mailbox earlier →
      holds mailbox.letIn earlier)
    (start : holds mailbox earlier) (rounds : Nat) :
    holds (mailbox.settleFor fired? rounds).1
      (earlier ++ mailbox.toldSettling fired? rounds) := by
  induction rounds generalizing mailbox earlier with
  | zero =>
      rw [toldSettling, List.append_nil]
      exact pollEach_induct (fun mailbox => holds mailbox earlier)
        (fun mailbox pending => poll mailbox earlier pending) start mailbox.pending
  | succ rounds ih =>
      have polled : holds (mailbox.pollAll fired?).1 earlier :=
        pollEach_induct (fun mailbox => holds mailbox earlier)
          (fun mailbox pending => poll mailbox earlier pending) start mailbox.pending
      rw [toldSettling, ← List.append_assoc]
      exact ih _ (serve_induct serve letIn polled)

end Induct

/-! ## Lines -/

namespace ReadQueue

/-- To enter a queue makes its line no longer. -/
theorem length_line_enter_le (queue : ReadQueue) (slots : Nat) (closed : Bool)
    (request : RequestId) :
    (queue.enter slots closed request).1.line.length ≤ queue.line.length := by
  unfold enter
  split
  · exact Nat.le_refl _
  · rename_i first rest line
    have fewer : rest.length ≤ queue.line.length := by
      rw [line]
      exact Nat.le_succ _
    split
    · exact Nat.le_refl _
    · split
      · exact fewer
      · split
        · exact fewer
        · exact Nat.le_refl _

/-- The first in line enters a queue in which no slot is taken. -/
theorem enter_first {queue : ReadQueue} {slots : Nat} (closed : Bool) {request : RequestId}
    {rest : List RequestId} (line : queue.line = request :: rest) (free : queue.seated = [])
    (room : 0 < slots) : (queue.enter slots closed request).1.line = rest := by
  unfold enter
  rw [line]
  cases closed with
  | true => simp
  | false => simp [free, room]

/-- Whoever is not the first in line stays where it is. -/
theorem enter_of_ne {queue : ReadQueue} (slots : Nat) (closed : Bool) {request first : RequestId}
    {rest : List RequestId} (line : queue.line = first :: rest) (different : first ≠ request) :
    queue.enter slots closed request = (queue, false) := by
  unfold enter
  rw [line]
  simp [different]

/-- Where nobody is in line, nobody enters from it. -/
theorem enter_of_nil {queue : ReadQueue} {slots : Nat} (closed : Bool) {request : RequestId}
    (line : queue.line = []) : queue.enter slots closed request = (queue, false) := by
  unfold enter
  rw [line]

/-- To leave a queue makes its line no longer. -/
theorem length_line_leave_le (queue : ReadQueue) (request : RequestId) :
    (queue.leave request).line.length ≤ queue.line.length :=
  List.length_filter_le ..

end ReadQueue

/-- What happens to the queue of takes when a request enters. -/
theorem enter_takes (mailbox : Mailbox α) (request : RequestId) :
    (mailbox.enter request).takes =
      (mailbox.takes.enter mailbox.slots mailbox.actor.ended request).1 := by
  unfold enter
  dsimp only
  split <;> rfl

/-- What happens to the queue of waits when a request enters. -/
theorem enter_waits (mailbox : Mailbox α) (request : RequestId) :
    (mailbox.enter request).waits =
      (mailbox.waits.enter mailbox.slots mailbox.actor.ended request).1 := by
  unfold enter
  dsimp only
  split <;> rfl

/-- A queue of a mailbox in which a request that is looked at enters, and which it leaves if it
ends. -/
structure Polls (queue : Mailbox α → ReadQueue) : Prop where
  poll : ∀ (fired? : TokenId → Option Failure) (mailbox : Mailbox α) (pending : Pending),
    queue (mailbox.poll fired? pending).1 =
        ((queue mailbox).enter mailbox.slots mailbox.actor.ended pending.id).1 ∨
      queue (mailbox.poll fired? pending).1 =
        ((queue mailbox).enter mailbox.slots mailbox.actor.ended pending.id).1.leave pending.id

theorem polls_takes : Polls (takes (α := α)) where
  poll := by
    intro fired? mailbox pending
    rw [← enter_takes]
    rcases poll_cases fired? mailbox pending with
      ⟨answer, -, polled⟩ | ⟨failure, -, -, polled⟩ | ⟨-, -, polled⟩
    · exact .inr (polled ▸ rfl)
    · exact .inr (polled ▸ rfl)
    · exact .inl (polled ▸ rfl)

theorem polls_waits : Polls (waits (α := α)) where
  poll := by
    intro fired? mailbox pending
    rw [← enter_waits]
    rcases poll_cases fired? mailbox pending with
      ⟨answer, -, polled⟩ | ⟨failure, -, -, polled⟩ | ⟨-, -, polled⟩
    · exact .inr (polled ▸ rfl)
    · exact .inr (polled ▸ rfl)
    · exact .inl (polled ▸ rfl)

namespace Polls

variable {queue : Mailbox α → ReadQueue}

/-- A look at requests makes no line longer. -/
theorem length_line_le (polls : Polls queue) (fired? : TokenId → Option Failure)
    (mailbox : Mailbox α) (requests : List Pending) :
    (queue (mailbox.pollEach fired? requests).1).line.length ≤ (queue mailbox).line.length := by
  refine pollEach_induct (fun after =>
    (queue after).line.length ≤ (queue mailbox).line.length) ?_ (Nat.le_refl _) requests
  intro middle pending shorter
  refine Nat.le_trans ?_ shorter
  have entered := (queue middle).length_line_enter_le middle.slots middle.actor.ended pending.id
  rcases polls.poll fired? middle pending with polled | polled
  · exact polled ▸ entered
  · exact polled ▸ Nat.le_trans (ReadQueue.length_line_leave_le ..) entered

/-- If no slot is taken, and the first in line is looked at, the line gets shorter. -/
theorem length_line_lt (polls : Polls queue) (fired? : TokenId → Option Failure)
    {mailbox : Mailbox α} {first : RequestId} {rest : List RequestId}
    (line : (queue mailbox).line = first :: rest) (free : (queue mailbox).seated = [])
    {requests : List Pending} (present : first ∈ requests.map Pending.id) :
    (queue (mailbox.pollEach fired? requests).1).line.length < (queue mailbox).line.length := by
  induction requests generalizing mailbox rest with
  | nil => cases present
  | cons pending others ih =>
      rw [pollEach_cons]
      by_cases same : first = pending.id
      · refine Nat.lt_of_le_of_lt (polls.length_line_le fired? _ others) ?_
        have entered := ReadQueue.enter_first mailbox.actor.ended (same ▸ line) free
          mailbox.slots_pos
        have shorter : rest.length < (queue mailbox).line.length := by
          rw [line]
          exact Nat.lt_succ_self _
        rcases polls.poll fired? mailbox pending with polled | polled
        · rw [polled, entered]
          exact shorter
        · rw [polled]
          refine Nat.lt_of_le_of_lt (ReadQueue.length_line_leave_le ..) ?_
          rw [entered]
          exact shorter
      · have stays := ReadQueue.enter_of_ne mailbox.slots mailbox.actor.ended line same
        have later := (List.mem_cons.mp present).resolve_left same
        rcases polls.poll fired? mailbox pending with polled | polled
        · rw [stays] at polled
          have same : queue (mailbox.poll fired? pending).1 = queue mailbox := polled
          have shorter := ih (same ▸ line) (same ▸ free) later
          rw [same] at shorter
          exact shorter
        · rw [stays] at polled
          have kept : (queue (mailbox.poll fired? pending).1).line =
              first :: rest.filter fun other => other ≠ pending.id := by
            rw [polled, ReadQueue.leave, line, List.filter_cons, if_pos (decide_eq_true same)]
          have unseated : (queue (mailbox.poll fired? pending).1).seated = [] := by
            rw [polled]
            exact free
          refine Nat.lt_of_lt_of_le (ih kept unseated later) ?_
          rw [polled]
          exact ReadQueue.length_line_leave_le ..

end Polls

/-! ## The end of settling -/

/-- Nothing is left for the actor to serve. -/
structure Idle (mailbox : Mailbox α) : Prop where
  control : mailbox.control = []
  orders : mailbox.orders = []
  pushes : mailbox.pushes = []
  overflow : mailbox.overflow = []
  takes : mailbox.takes.seated = []
  waits : mailbox.waits.seated = []

/-- Everybody in line listens. -/
def Attended (mailbox : Mailbox α) : Prop :=
  ∀ request, request ∈ mailbox.takes.line ∨ request ∈ mailbox.waits.line →
    mailbox.listening request = true

/-- Nothing is left for the actor to serve, and nobody stands in line. -/
structure Served (mailbox : Mailbox α) : Prop where
  control : mailbox.control = []
  orders : mailbox.orders = []
  pushes : mailbox.pushes = []
  overflow : mailbox.overflow = []
  takes : mailbox.takes = .empty
  waits : mailbox.waits = .empty

/-- After enough rounds no push is set aside any more. -/
theorem serveOverflow_overflow (mailbox : Mailbox α) (rounds : Nat)
    (enough : mailbox.overflow.length ≤ rounds) :
    (mailbox.serveOverflow rounds).1.overflow = [] := by
  induction rounds generalizing mailbox with
  | zero => exact List.length_eq_zero_iff.mp (Nat.le_zero.mp enough)
  | succ rounds ih =>
      unfold serveOverflow
      split
      · rename_i none
        exact List.isEmpty_iff.mp none
      · refine ih _ ?_
        change (mailbox.overflow.drop mailbox.slots).length ≤ rounds
        have room := mailbox.slots_pos
        rw [List.length_drop]
        omega

/-- What was queued has been served: the queues are empty, and whoever stood in line still does. -/
structure Emptied (before after : Mailbox α) : Prop where
  control : after.control = []
  orders : after.orders = []
  pushes : after.pushes = []
  takes : after.takes = before.takes.serve
  waits : after.waits = before.waits.serve
  pending : after.pending = before.pending

/-- When the queues have been served, the actor finds nothing more in the control queue: it does not
look there again if it has met the end. -/
theorem serveQueues_orders (mailbox : Mailbox α) : mailbox.serveQueues.1.orders = [] := by
  unfold orders
  split
  · rename_i attending
    have writers := of_decide_eq_true (Bool.and_eq_true_iff.mp attending).2
    exact if_neg (Nat.ne_of_gt writers)
  · rfl

/-- Whatever is served, it depends on the handles alone whether the actor goes on looking. -/
theorem serveQueues_attends (mailbox : Mailbox α) :
    mailbox.serveQueues.1.attends = mailbox.attends := by
  change (mailbox.attends && decide (0 < mailbox.handles.writers)) = mailbox.attends
  rw [attends, Bool.and_assoc, Bool.and_self]

/-- Where the actor finds nothing in the control queue, it looks there for as long as there are
writers. -/
theorem attending_of_orders {mailbox : Mailbox α} (none : mailbox.orders = []) :
    mailbox.attending = mailbox.attends := by
  cases attending : mailbox.attending with
  | false => rw [attends, attending, Bool.false_and]
  | true =>
      rw [orders, if_pos attending, List.append_eq_nil_iff] at none
      have writers : mailbox.handles.writers ≠ 0 := fun gone => by
        rw [if_pos gone] at none
        cases none.2
      rw [attends, attending, decide_eq_true (Nat.pos_of_ne_zero writers), Bool.true_and]

/-- The queues stay empty while pushes set aside are let in. -/
theorem serveOverflow_emptied {mailbox served : Mailbox α} (emptied : Emptied mailbox served)
    (rounds : Nat) : Emptied mailbox (served.serveOverflow rounds).1 := by
  induction rounds generalizing served with
  | zero => exact emptied
  | succ rounds ih =>
      unfold serveOverflow
      split
      · exact emptied
      · refine ih ⟨rfl, serveQueues_orders _, rfl, ?_, ?_, emptied.pending⟩
        · change served.takes.serve = _
          rw [emptied.takes]
          rfl
        · change served.waits.serve = _
          rw [emptied.waits]
          rfl

/-- A mailbox that is served has empty queues. -/
theorem serve_emptied (mailbox : Mailbox α) : Emptied mailbox mailbox.serve.1 := by
  have queues : Emptied mailbox mailbox.serveQueues.1 :=
    ⟨rfl, serveQueues_orders _, rfl, rfl, rfl, rfl⟩
  exact serveOverflow_emptied queues _

/-- A mailbox that is served has nothing left to tell its actor. -/
theorem serve_idle (mailbox : Mailbox α) : mailbox.serve.1.Idle := by
  have emptied := mailbox.serve_emptied
  refine ⟨emptied.control, emptied.orders, emptied.pushes,
    serveOverflow_overflow _ _ (Nat.le_refl _), ?_, ?_⟩
  · rw [emptied.takes]
    rfl
  · rw [emptied.waits]
    rfl

/-- Those who stand in line are still pending after others are served. -/
theorem serve_attended {mailbox : Mailbox α} (attended : mailbox.Attended) :
    mailbox.serve.1.Attended := by
  have emptied := mailbox.serve_emptied
  intro request inLine
  rw [emptied.takes, emptied.waits] at inLine
  rw [listening_iff, emptied.pending, ← listening_iff]
  exact attended request inLine

/-- Whoever is in line after somebody has entered was there before. -/
theorem ReadQueue.mem_line_of_enter {queue : ReadQueue} {slots : Nat} {closed : Bool}
    {request other : RequestId} (present : other ∈ (queue.enter slots closed request).1.line) :
    other ∈ queue.line := by
  unfold ReadQueue.enter at present
  split at present
  · exact present
  · rename_i first rest line
    have later (member : other ∈ rest) : other ∈ queue.line := by
      rw [line]
      exact List.mem_cons_of_mem _ member
    split at present
    · exact present
    · split at present
      · exact later present
      · split at present
        · exact later present
        · exact present

/-- A request that is forgotten has left the line. -/
theorem forget_attended {mailbox : Mailbox α} (request : RequestId) (attended : mailbox.Attended) :
    (mailbox.forget request).Attended := by
  intro other inLine
  simp only [Mailbox.forget, ReadQueue.leave, List.mem_filter, decide_eq_true_eq] at inLine
  rw [forget_listening_iff]
  exact ⟨attended other (inLine.imp And.left And.left), inLine.elim And.right And.right⟩

/-- A request that a look ends has left the line. -/
theorem poll_attended {mailbox : Mailbox α} (fired? : TokenId → Option Failure) (pending : Pending)
    (attended : mailbox.Attended) : (mailbox.poll fired? pending).1.Attended := by
  have entered : (mailbox.enter pending.id).Attended := by
    intro request inLine
    rw [enter_takes, enter_waits] at inLine
    rw [listening_iff, enter_pending, ← listening_iff]
    exact attended request (inLine.imp ReadQueue.mem_line_of_enter ReadQueue.mem_line_of_enter)
  have left := forget_attended pending.id entered
  rcases poll_cases fired? mailbox pending with
    ⟨answer, -, polled⟩ | ⟨failure, -, -, polled⟩ | ⟨-, -, polled⟩
  · exact polled ▸ left
  · exact polled ▸ left
  · exact polled ▸ entered

/-- An empty queue stays empty when a request is polled. -/
theorem Polls.of_nil {queue : Mailbox α → ReadQueue} (polls : Polls queue)
    (fired? : TokenId → Option Failure) (mailbox : Mailbox α) (pending : Pending)
    (empty : queue mailbox = .empty) : queue (mailbox.poll fired? pending).1 = .empty := by
  have stays : (queue mailbox).enter mailbox.slots mailbox.actor.ended pending.id =
      (queue mailbox, false) := ReadQueue.enter_of_nil _ (empty ▸ rfl)
  rcases polls.poll fired? mailbox pending with polled | polled
  · rw [polled, stays, empty]
  · rw [polled, stays, empty]
    rfl

/-- A mailbox stays served when a request is polled. -/
theorem poll_served {mailbox : Mailbox α} (fired? : TokenId → Option Failure) (pending : Pending)
    (served : mailbox.Served) : (mailbox.poll fired? pending).1.Served := by
  have unserved := mailbox.poll_unserved fired? pending
  exact
    { control := unserved.control.trans served.control
      orders := unserved.orders.trans served.orders
      pushes := unserved.pushes.trans served.pushes
      overflow := unserved.overflow.trans served.overflow
      takes := polls_takes.of_nil fired? mailbox pending served.takes
      waits := polls_waits.of_nil fired? mailbox pending served.waits }

/-- A mailbox stays served when all requests are polled. -/
theorem pollAll_served {mailbox : Mailbox α} (fired? : TokenId → Option Failure)
    (served : mailbox.Served) : (mailbox.pollAll fired?).1.Served :=
  pollEach_induct _ (fun _ => poll_served fired?) served mailbox.pending

/-- Where no slot is taken, a look at all requests shortens every line that is not empty. -/
theorem Polls.pollAll_line {queue : Mailbox α → ReadQueue} (polls : Polls queue)
    (fired? : TokenId → Option Failure) {mailbox : Mailbox α} (free : (queue mailbox).seated = [])
    (attended : ∀ request ∈ (queue mailbox).line, mailbox.listening request = true) :
    (queue (mailbox.pollAll fired?).1).line.length ≤ (queue mailbox).line.length - 1 := by
  cases line : (queue mailbox).line with
  | nil =>
      have shorter := polls.length_line_le fired? mailbox mailbox.pending
      rw [line] at shorter
      exact shorter
  | cons first rest =>
      have present := (mailbox.listening_iff first).mp
        (attended first (line ▸ List.mem_cons_self))
      have shorter := polls.length_line_lt fired? line free present
      rw [line] at shorter
      exact Nat.le_sub_one_of_lt shorter

/-- A mailbox with free slots is served in as many rounds as requests stand in line. -/
theorem settleFor_served {mailbox : Mailbox α} (fired? : TokenId → Option Failure) (rounds : Nat)
    (idle : mailbox.Idle) (attended : mailbox.Attended)
    (enough : mailbox.takes.line.length + mailbox.waits.line.length ≤ rounds) :
    (mailbox.settleFor fired? rounds).1.Served := by
  induction rounds generalizing mailbox with
  | zero =>
      have takes : mailbox.takes.line = [] := List.length_eq_zero_iff.mp (by omega)
      have waits : mailbox.waits.line = [] := List.length_eq_zero_iff.mp (by omega)
      refine pollAll_served fired? ⟨idle.control, idle.orders, idle.pushes, idle.overflow, ?_, ?_⟩
      · exact congrArg₂ ReadQueue.mk idle.takes takes
      · exact congrArg₂ ReadQueue.mk idle.waits waits
  | succ rounds ih =>
      have polled : (mailbox.pollAll fired?).1.Attended :=
        pollEach_induct _ (fun _ => poll_attended fired?) attended mailbox.pending
      have takes := polls_takes.pollAll_line fired? idle.takes
        fun request inLine => attended request (.inl inLine)
      have waits := polls_waits.pollAll_line fired? idle.waits
        fun request inLine => attended request (.inr inLine)
      have emptied := (mailbox.pollAll fired?).1.serve_emptied
      apply ih (serve_idle _) (serve_attended polled)
      rw [emptied.takes, emptied.waits]
      simp only [ReadQueue.serve]
      omega

/-- Once a mailbox has come to rest nothing is left to serve and nobody stands in line. -/
theorem settle_served {mailbox : Mailbox α} (fired? : TokenId → Option Failure)
    (attended : mailbox.Attended) : (mailbox.settle fired?).1.Served := by
  have polled : (mailbox.pollAll fired?).1.Attended :=
    pollEach_induct _ (fun _ => poll_attended fired?) attended mailbox.pending
  have takes := polls_takes.length_line_le fired? mailbox mailbox.pending
  have waits := polls_waits.length_line_le fired? mailbox mailbox.pending
  have emptied := (mailbox.pollAll fired?).1.serve_emptied
  apply settleFor_served fired? _ (serve_idle _) (serve_attended polled)
  rw [emptied.takes, emptied.waits]
  exact Nat.add_le_add takes waits

end CommandScript.Mailbox
