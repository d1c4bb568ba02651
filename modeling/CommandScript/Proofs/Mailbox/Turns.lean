import CommandScript.Proofs.Mailbox.Order
import CommandScript.Proofs.Mailbox.Waiting

/-!
# First come, first served

Pushes reach the actor in the order in which they are issued, whether they enter its queue at once
or are set aside first, and so do takes. Since the actor keeps all in order, values are handed over
in the order of their pushes, and of two takes the earlier one gets the earlier value
(`CommandScript.Mailbox.run_inTurn`). Where pushes wait for room no value is lost, and none is
acknowledged before an earlier one that is still waited for.
-/

namespace CommandScript.Mailbox

variable {α : Type}

open History

/-! ## What has reached the actor -/

/-- The items that an actor has been told of. -/
def itemsOf (told : Told α) : List (Item α) :=
  (told.map Prod.snd).filterMap Event.item?

/-- The takes that an actor has been told of. -/
def takersOf (told : Told α) : List RequestId :=
  (told.map Prod.snd).filterMap Event.taker?

theorem itemsOf_append (earlier later : Told α) :
    itemsOf (earlier ++ later) = itemsOf earlier ++ itemsOf later := by
  rw [itemsOf, List.map_append, List.filterMap_append]
  rfl

theorem takersOf_append (earlier later : Told α) :
    takersOf (earlier ++ later) = takersOf earlier ++ takersOf later := by
  rw [takersOf, List.map_append, List.filterMap_append]
  rfl

theorem map_told (mailbox : Mailbox α) : mailbox.told.map Prod.snd = mailbox.queued := by
  rw [told, List.map_map, show Prod.snd ∘ _ = id from rfl, List.map_id]

/-- The items in the queues are told. -/
theorem itemsOf_told (mailbox : Mailbox α) : itemsOf mailbox.told = mailbox.pushes := by
  rw [itemsOf, map_told, queued_items]

/-- The takers in the queues are told. -/
theorem takersOf_told (mailbox : Mailbox α) : takersOf mailbox.told = mailbox.takes.seated := by
  have pushes : mailbox.pushes.filterMap
      ((Event.taker? : Event α → _) ∘ fun item => .push item (mailbox.listening item.push)) =
        [] := List.filterMap_eq_nil_iff.mpr fun _ _ => rfl
  have waits : mailbox.waits.seated.filterMap ((Event.taker? : Event α → _) ∘ .wait) = [] :=
    List.filterMap_eq_nil_iff.mpr fun _ _ => rfl
  rw [takersOf, map_told, queued, List.filterMap_append, List.filterMap_append,
    List.filterMap_append, filterMap_control _ _ rfl rfl, List.filterMap_map, List.filterMap_map,
    List.filterMap_map, pushes, waits, List.nil_append, List.nil_append, List.append_nil]
  exact List.filterMap_some

/-- The items on their way to the actor, behind those that it has been told of. -/
def arrivals (mailbox : Mailbox α) (told : Told α) : List (Item α) :=
  itemsOf told ++ mailbox.pushes ++ mailbox.overflow

/-- The takes on their way to the actor, behind those that it has been told of. -/
def callers (mailbox : Mailbox α) (told : Told α) : List RequestId :=
  takersOf told ++ mailbox.takes.requests

/-- Pushes and takes reach the actor in the order of their numbers, and no push is left out while
the actor runs. -/
structure InLine (mailbox : Mailbox α) (told : Told α) (pushed : List (Item α)) : Prop where
  started : mailbox.arrivals told <+: pushed
  whole : mailbox.actor.ended = false → mailbox.arrivals told = pushed
  numbered : (pushed.map Item.push).Pairwise (· < ·)
  issued : ∀ item ∈ pushed, item.push < mailbox.nextRequest
  called : (mailbox.callers told).Pairwise (· < ·)
  asked : ∀ request ∈ mailbox.callers told, request < mailbox.nextRequest

variable {mailbox after : Mailbox α} {told : Told α} {pushed : List (Item α)}

/-- Pushes and takes stay in line if no push moves, and takes at most leave. -/
theorem InLine.of_sublist (inLine : InLine mailbox told pushed) {later : Told α}
    (arrivals : after.arrivals later = mailbox.arrivals told)
    (callers : (after.callers later).Sublist (mailbox.callers told))
    (nextRequest : after.nextRequest = mailbox.nextRequest)
    (lasting : after.actor.ended = false → mailbox.actor.ended = false) :
    InLine after later pushed where
  started := arrivals ▸ inLine.started
  whole := fun running => arrivals ▸ inLine.whole (lasting running)
  numbered := inLine.numbered
  issued := nextRequest ▸ inLine.issued
  called := inLine.called.sublist callers
  asked := fun request member => nextRequest ▸ inLine.asked request (callers.subset member)

/-! ## Looking and serving -/

/-- To enter a queue adds no request and keeps the order of all others. -/
theorem ReadQueue.enter_sublist (queue : ReadQueue) (slots : Nat) (closed : Bool)
    (request : RequestId) :
    (queue.enter slots closed request).1.requests.Sublist queue.requests := by
  unfold ReadQueue.enter
  split
  · exact .refl _
  · rename_i first rest line
    split
    · exact .refl _
    · split
      · rw [requests, requests, line]
        exact (List.sublist_cons_self first rest).append_left queue.seated
      · split
        · rename_i same _ _
          rw [not_not] at same
          subst same
          rw [requests, requests, line, List.append_assoc]
          exact .refl _
        · exact .refl _

/-- To leave a queue keeps the order of the others. -/
theorem ReadQueue.leave_sublist (queue : ReadQueue) (request : RequestId) :
    (queue.leave request).requests.Sublist queue.requests :=
  List.filter_sublist.append_left queue.seated

/-- A look at a request changes nothing about the items. -/
theorem poll_arrivals (fired? : TokenId → Option Failure) (mailbox : Mailbox α)
    (pending : Pending) (told : Told α) :
    (mailbox.poll fired? pending).1.arrivals told = mailbox.arrivals told := by
  have unserved := mailbox.poll_unserved fired? pending
  rw [arrivals, arrivals, unserved.pushes, unserved.overflow]

/-- Serving tells the actor of the items that have a place in the queue. -/
theorem serveQueues_arrivals (mailbox : Mailbox α) (told : Told α) :
    mailbox.serveQueues.1.arrivals (told ++ mailbox.told) = mailbox.arrivals told := by
  rw [arrivals, arrivals, itemsOf_append, itemsOf_told]
  exact congrArg (· ++ mailbox.overflow) (List.append_nil _)

/-- Whoever is served has called before. -/
theorem serveQueues_callers (mailbox : Mailbox α) (told : Told α) :
    mailbox.serveQueues.1.callers (told ++ mailbox.told) = mailbox.callers told := by
  rw [callers, callers, takersOf_append, takersOf_told, List.append_assoc]
  rfl

/-- Pushes are let in in the order in which they came. -/
theorem letIn_arrivals (idle : mailbox.pushes = []) (told : Told α) :
    mailbox.letIn.arrivals told = mailbox.arrivals told := by
  rw [arrivals, arrivals, idle, List.append_nil, List.append_assoc]
  exact congrArg (itemsOf told ++ ·) (List.take_append_drop mailbox.slots mailbox.overflow)

/-- A look at a request keeps everybody in line. -/
theorem InLine.poll (inLine : InLine mailbox told pushed) (fired? : TokenId → Option Failure)
    (pending : Pending) : InLine (mailbox.poll fired? pending).1 told pushed := by
  have unserved := mailbox.poll_unserved fired? pending
  refine inLine.of_sublist (poll_arrivals fired? mailbox pending told)
    (List.Sublist.append_left ?_ _) unserved.nextRequest ?_
  · have entered := mailbox.takes.enter_sublist mailbox.slots mailbox.actor.ended pending.id
    rcases polls_takes.poll fired? mailbox pending with polled | polled
    · exact polled ▸ entered
    · exact polled ▸ (ReadQueue.leave_sublist _ _).trans entered
  · exact fun running => unserved.actor ▸ running

/-- An actor that has ended stays so. -/
theorem Actor.run_of_ended {actor : Actor α} (ended : actor.ended = true) (events : Told α) :
    (actor.run events).1.ended = true := by
  induction events with
  | nil => exact ended
  | cons event rest ih =>
      obtain ⟨listening, event⟩ := event
      change ((actor.handle listening event).1.run rest).1.ended = true
      rw [actor.handle_of_ended listening event ended]
      exact ih

/-- An actor that runs after it has served its queues did so before. -/
theorem running_of_serveQueues (running : mailbox.serveQueues.1.actor.ended = false) :
    mailbox.actor.ended = false := by
  by_contra stopped
  rw [Bool.not_eq_false] at stopped
  have ended : mailbox.serveQueues.1.actor.ended = true :=
    Actor.run_of_ended stopped mailbox.told
  rw [ended] at running
  cases running

/-- To serve the queues keeps everybody in line. -/
theorem InLine.serveQueues (inLine : InLine mailbox told pushed) :
    InLine mailbox.serveQueues.1 (told ++ mailbox.told) pushed :=
  inLine.of_sublist (serveQueues_arrivals mailbox told)
    (serveQueues_callers mailbox told ▸ .refl _) rfl running_of_serveQueues

/-- To let pushes in keeps everybody in line. -/
theorem InLine.letIn (inLine : InLine mailbox told pushed) (idle : mailbox.pushes = []) :
    InLine mailbox.letIn told pushed :=
  inLine.of_sublist (letIn_arrivals idle told) (.refl _) rfl fun running => running

/-- Everybody stays in line while a mailbox settles. -/
theorem InLine.settle (inLine : InLine mailbox told pushed) (fired? : TokenId → Option Failure) :
    InLine (mailbox.settle fired?).1 (told ++ mailbox.toldSettling fired? mailbox.rounds) pushed :=
  settleFor_induct (fun mailbox told => InLine mailbox told pushed) told
    (fun _ _ pending inLine => inLine.poll fired? pending)
    (fun _ _ inLine => inLine.serveQueues)
    (fun _ _ idle inLine => inLine.letIn idle) inLine mailbox.rounds

/-! ## Issuing requests -/

/-- Pushes are set aside only while their queue is full. -/
def Crowded (mailbox : Mailbox α) : Prop :=
  mailbox.overflow = [] ∨ mailbox.slots ≤ mailbox.pushes.length

/-- What is crowded stays so until it is served. -/
theorem Unserved.crowded (unserved : Unserved mailbox after) (crowded : mailbox.Crowded) :
    after.Crowded := by
  rw [Crowded, unserved.overflow, unserved.slots, unserved.pushes]
  exact crowded

/-- A mailbox that has settled has set no push aside. -/
theorem settle_crowded (mailbox : Mailbox α) (fired? : TokenId → Option Failure) :
    (mailbox.settle fired?).1.Crowded := by
  have idle := (mailbox.pollAll fired?).1.serve_idle
  have kept := settleFor_induct (fun after _ => after.overflow = []) []
    (fun middle _ pending none => (middle.poll_unserved fired? pending).overflow.trans none)
    (fun _ _ none => none)
    (fun middle _ _ none => (congrArg (List.drop middle.slots) none).trans List.drop_nil)
    idle.overflow (mailbox.takes.line.length + mailbox.waits.line.length)
  exact .inl kept

/-- A further pushed value has the highest number. -/
theorem InLine.register (inLine : InLine mailbox told pushed) (token : Option TokenId)
    (value : Option α) :
    ((pushed ++ (ofPushed mailbox.nextRequest value).pushed).map Item.push).Pairwise (· < ·) ∧
      ∀ item ∈ pushed ++ (ofPushed mailbox.nextRequest value).pushed,
        item.push < (mailbox.register token).nextRequest := by
  have new {item : Item α} (member : item ∈ (ofPushed mailbox.nextRequest value).pushed) :
      item.push = mailbox.nextRequest := by
    obtain ⟨given, -, rfl⟩ := Option.map_eq_some_iff.mp (Option.mem_toList.mp member)
    rfl
  constructor
  · rw [List.map_append, List.pairwise_append]
    refine ⟨inLine.numbered, ?_, ?_⟩
    · cases value with
      | none => exact .nil
      | some value => exact List.pairwise_singleton ..
    · intro push earlier other later
      obtain ⟨item, member, rfl⟩ := List.mem_map.mp earlier
      obtain ⟨last, pushes, rfl⟩ := List.mem_map.mp later
      rw [new pushes]
      exact inLine.issued item member
  · intro item member
    refine Nat.lt_succ_of_le ?_
    rcases List.mem_append.mp member with earlier | later
    · exact Nat.le_of_lt (inLine.issued item earlier)
    · exact Nat.le_of_eq (new later)

/-- A way to put a request behind all others. The value that it pushes, if it does, stands behind
all others too, unless the actor has ended. -/
structure PutsLast (value : Option α) (put : Mailbox α → RequestId → Mailbox α) : Prop where
  nextRequest : ∀ mailbox request, (put mailbox request).nextRequest = mailbox.nextRequest
  actor : ∀ mailbox request, (put mailbox request).actor = mailbox.actor
  arrivals : ∀ mailbox request told, mailbox.Crowded →
    (put mailbox request).arrivals told = mailbox.arrivals told ++
      if mailbox.actor.ended then [] else (ofPushed request value).pushed
  callers : ∀ mailbox request told, ((put mailbox request).callers told).Sublist
    (mailbox.callers told ++ [request])
  crowded : ∀ mailbox request, mailbox.Crowded → (put mailbox request).Crowded

/-- A push is put last with its value. -/
theorem putsLast_push (value : α) : PutsLast (some value) (putPush value) where
  nextRequest := (puts_push value).nextRequest
  actor := by
    intro mailbox request
    unfold putPush
    split
    · rfl
    · split <;> rfl
  arrivals := by
    intro mailbox request told crowded
    unfold putPush
    cases mailbox.actor.ended with
    | true => exact (List.append_nil _).symm
    | false =>
        simp only [Bool.false_eq_true, if_false]
        split
        · rename_i room
          have none : mailbox.overflow = [] := crowded.resolve_right (Nat.not_le_of_lt room)
          simp only [Mailbox.arrivals, none, List.append_nil, List.append_assoc]
          rfl
        · exact (List.append_assoc ..).symm
  callers := by
    intro mailbox request told
    unfold putPush
    split
    · exact List.sublist_append_left ..
    · split <;> exact List.sublist_append_left ..
  crowded := by
    intro mailbox request crowded
    unfold putPush
    split
    · exact crowded
    · split
      · rename_i room
        exact .inl (crowded.resolve_right (Nat.not_le_of_lt room))
      · rename_i full
        exact .inr (Nat.le_of_not_lt full)

theorem putsLast_take : PutsLast none (putTake : Mailbox α → RequestId → Mailbox α) where
  nextRequest := fun _ _ => rfl
  actor := fun _ _ => rfl
  arrivals := fun _ _ _ _ => by
    rw [show (ofPushed _ (none : Option α)).pushed = [] from rfl, ite_self, List.append_nil]
    rfl
  callers := fun mailbox request told => by
    have joined : (putTake mailbox request).callers told = mailbox.callers told ++ [request] := by
      simp only [Mailbox.callers, putTake, ReadQueue.join, ReadQueue.requests, List.append_assoc]
    exact joined ▸ .refl _
  crowded := fun _ _ crowded => crowded

/-- Requests that neither push nor take are put anywhere else. -/
theorem putsLast_other {put : Mailbox α → RequestId → Mailbox α}
    (nextRequest : ∀ mailbox request, (put mailbox request).nextRequest = mailbox.nextRequest)
    (actor : ∀ mailbox request, (put mailbox request).actor = mailbox.actor)
    (slots : ∀ mailbox request, (put mailbox request).slots = mailbox.slots)
    (pushes : ∀ mailbox request, (put mailbox request).pushes = mailbox.pushes)
    (overflow : ∀ mailbox request, (put mailbox request).overflow = mailbox.overflow)
    (takes : ∀ mailbox request, (put mailbox request).takes = mailbox.takes) :
    PutsLast none put where
  nextRequest := nextRequest
  actor := actor
  arrivals := fun mailbox request _ _ => by
    rw [show (ofPushed _ (none : Option α)).pushed = [] from rfl, ite_self, List.append_nil,
      arrivals, arrivals, pushes, overflow]
  callers := fun mailbox request _ => by
    rw [callers, callers, takes]
    exact List.sublist_append_left ..
  crowded := fun mailbox request crowded => by
    rw [Crowded, overflow, slots, pushes]
    exact crowded

theorem putsLast_wait : PutsLast none (putWait : Mailbox α → RequestId → Mailbox α) :=
  putsLast_other (fun _ _ => rfl) (fun _ _ => rfl) (fun _ _ => rfl) (fun _ _ => rfl)
    (fun _ _ => rfl) (fun _ _ => rfl)

/-- A request that waits for a token only is put nowhere. -/
theorem putsLast_token : PutsLast none fun (mailbox : Mailbox α) (_ : RequestId) => mailbox :=
  putsLast_other (fun _ _ => rfl) (fun _ _ => rfl) (fun _ _ => rfl) (fun _ _ => rfl)
    (fun _ _ => rfl) (fun _ _ => rfl)

/-- A request that is put behind all others stays in line. -/
theorem InLine.issue (inLine : InLine mailbox told pushed) (crowded : mailbox.Crowded)
    (fired? : TokenId → Option Failure) (token : Option TokenId) {value : Option α}
    {put : Mailbox α → RequestId → Mailbox α} (puts : PutsLast value put) :
    InLine (mailbox.issue fired? token put).1 told
        (pushed ++ (ofPushed mailbox.nextRequest value).pushed) ∧
      (mailbox.issue fired? token put).1.Crowded := by
  obtain ⟨numbered, issued⟩ := inLine.register token value
  have arrived := puts.arrivals (mailbox.register token) mailbox.nextRequest told crowded
  have called := puts.callers (mailbox.register token) mailbox.nextRequest told
  have placed : InLine (put (mailbox.register token) mailbox.nextRequest) told
      (pushed ++ (ofPushed mailbox.nextRequest value).pushed) := by
    refine ⟨?_, fun running => ?_, numbered, (puts.nextRequest _ _).symm ▸ issued, ?_, ?_⟩
    · rw [arrived]
      cases running : mailbox.actor.ended with
      | true =>
          rw [show (mailbox.register token).actor.ended = true from running, if_pos rfl,
            List.append_nil]
          exact inLine.started.trans (List.prefix_append ..)
      | false =>
          have whole : (mailbox.register token).arrivals told = pushed := inLine.whole running
          rw [show (mailbox.register token).actor.ended = false from running,
            if_neg Bool.false_ne_true]
          exact ⟨[], (List.append_nil _).trans (congrArg (· ++ _) whole)⟩
    · rw [puts.actor] at running
      rw [arrived, running, if_neg Bool.false_ne_true]
      exact congrArg (· ++ _) (inLine.whole running)
    · refine List.Pairwise.sublist called (List.pairwise_append.mpr ⟨inLine.called, ?_, ?_⟩)
      · exact List.pairwise_singleton ..
      · intro request earlier other new
        rw [List.mem_singleton.mp new]
        exact inLine.asked request earlier
    · intro request member
      rw [puts.nextRequest]
      refine Nat.lt_succ_of_le ?_
      rcases List.mem_append.mp (called.subset member) with earlier | new
      · exact Nat.le_of_lt (inLine.asked request earlier)
      · exact Nat.le_of_eq (List.mem_singleton.mp new)
  exact ⟨placed.poll fired? _, (poll_unserved fired? _ _).crowded (puts.crowded _ _ crowded)⟩

/-- One operation leaves pushes and takes in line. -/
theorem InLine.operate {world : World α} (inLine : InLine world.mailbox told pushed)
    (crowded : world.mailbox.Crowded) (operation : Operation α) :
    InLine (world.operate operation).1.mailbox told
        (pushed ++ (ofOperation operation (world.operate operation).2).pushed) ∧
      (world.operate operation).1.mailbox.Crowded := by
  have same : InLine world.mailbox told (pushed ++ []) := by
    rw [List.append_nil]
    exact inLine
  have pushes (value : α) (token : Option TokenId) :=
    inLine.issue crowded world.signals.fired? token (putsLast_push value)
  unfold World.operate
  split
  · cases operation with
    | push value => exact pushes value none
    | tryPush value =>
        rw [World.perform_tryPush]
        split
        · exact ⟨same, crowded⟩
        · exact pushes value none
    | pushWith value token => exact pushes value (some token)
    | take => exact inLine.issue crowded world.signals.fired? none putsLast_take
    | takeWith token => exact inLine.issue crowded world.signals.fired? (some token) putsLast_take
    | wait => exact inLine.issue crowded world.signals.fired? none putsLast_wait
    | awaitToken token =>
        exact inLine.issue crowded world.signals.fired? (some token) putsLast_token
    | abandon request =>
        refine ⟨same.of_sublist rfl ?_ rfl fun running => running, crowded⟩
        exact (ReadQueue.leave_sublist _ request).append_left _
    | close =>
        exact ⟨same.of_sublist rfl (.refl _) rfl fun running => running, crowded⟩
    | discard =>
        exact ⟨same.of_sublist rfl (.refl _) rfl fun running => running, crowded⟩
    | changeHandles change =>
        exact ⟨same.of_sublist rfl (.refl _) rfl fun running => running, crowded⟩
    | _ => exact ⟨same, crowded⟩
  · rw [ofOperation_unavailable]
    exact ⟨same, crowded⟩

/-- Everybody stays in line through any number of operations. -/
theorem InLine.operateAll {world : World α} (inLine : InLine world.mailbox told pushed)
    (crowded : world.mailbox.Crowded) (operations : List (Operation α)) :
    InLine (world.operateAll operations).1.mailbox told
        (pushed ++ (ofOperations operations (world.operateAll operations).2).pushed) := by
  induction operations generalizing world pushed with
  | nil => exact (List.append_nil pushed).symm ▸ inLine
  | cons operation rest ih =>
      obtain ⟨operated, stillCrowded⟩ := inLine.operate crowded operation
      have final := ih operated stillCrowded
      rw [List.append_assoc] at final
      exact final

/-- A run leaves pushes and takes in line. -/
theorem InLine.run {world : World α} (inLine : InLine world.mailbox told pushed)
    (crowded : world.mailbox.Crowded) (steps : List (List (Operation α))) :
    InLine (world.run steps).1.mailbox (told ++ world.told steps)
      (pushed ++ (ofRun steps (world.run steps).2).pushed) := by
  induction steps generalizing world told pushed with
  | nil =>
      rw [World.told, List.append_nil]
      exact (List.append_nil pushed).symm ▸ inLine
  | cons operations rest ih =>
      have settled := (inLine.operateAll crowded operations).settle
        (world.operateAll operations).1.signals.fired?
      have final : InLine ((world.step operations).1.run rest).1.mailbox _ _ :=
        ih settled (settle_crowded _ _)
      have pushes : (ofRun (operations :: rest) (world.run (operations :: rest)).2).pushed =
          (ofOperations operations (world.operateAll operations).2).pushed ++
            (ofRun rest ((world.step operations).1.run rest).2).pushed := by
        change _ ++ [] ++ _ = _
        rw [List.append_nil]
        rfl
      rw [pushes, World.told, ← List.append_assoc, ← List.append_assoc]
      exact final

/-! ## Where pushes wait for room -/

namespace Actor

variable {listening : RequestId → Bool} {before after : Actor α} {notices : List (Notice α)}

/-- The actor lets pushes wait, and no item is lost to overflow. -/
structure Spares (after : Actor α) (notices : List (Notice α)) : Prop where
  policy : after.policy = .block
  evictions : notices.filterMap Notice.eviction? = []

/-- Answers are no evictions. -/
theorem answerAll_evictions (requests : List RequestId) (reply : Answer α) :
    (answerAll listening requests reply).filterMap Notice.eviction? = [] :=
  filterMap_answerAll_eq_nil _ _ _ _ fun _ => rfl

/-- Nothing is evicted when those who wait are refused. -/
theorem failWaiting_evictions (actor : Actor α) :
    (actor.failWaiting listening).2.filterMap Notice.eviction? = [] := by
  rw [failWaiting, List.filterMap_append, answerAll_evictions, answerAll_evictions]
  rfl

/-- No small step evicts anything. -/
theorem SmallStep.evictions (step : SmallStep listening before after notices) :
    notices.filterMap Notice.eviction? = [] := by
  cases step with
  | wake occupied => exact answerAll_evictions _ _
  | fail drained closed => exact failWaiting_evictions before
  | _ => rfl

theorem Course.evictions (course : Course listening before after notices) :
    notices.filterMap Notice.eviction? = [] := by
  induction course with
  | done actor => rfl
  | step first rest ih => rw [List.filterMap_append, first.evictions, ih, List.append_nil]

/-- An actor that lets pushes wait loses no item while it comes to rest. -/
theorem settle_spares {actor : Actor α} {told : List (Notice α)} (spares : Spares actor told) :
    Spares (actor.settle listening).1 (told ++ (actor.settle listening).2) := by
  have course := settle_course listening actor
  refine ⟨course.sameMailbox.policy.trans spares.policy, ?_⟩
  rw [List.filterMap_append, spares.evictions, course.evictions, List.append_nil]

/-- Where pushes wait for room, none is let in at the expense of another. -/
theorem Entry.spares {item : Item α} (entry : Entry listening before item after notices)
    (blocking : before.policy = .block) : Spares after notices := by
  cases entry with
  | replaces dropping whole hears => exact absurd blocking dropping
  | lost dropping => exact absurd blocking dropping
  | _ => exact ⟨blocking, rfl⟩

/-- What is discarded is not lost to overflow. -/
theorem discard_spares {actor : Actor α} (blocking : actor.policy = .block) :
    Spares (actor.discard listening).1 (actor.discard listening).2 := by
  have cleared : (actor.buffer.map Notice.cleared).filterMap Notice.eviction? = [] := by
    rw [List.filterMap_map, List.filterMap_eq_nil_iff]
    exact fun _ _ => rfl
  refine ⟨blocking, ?_⟩
  rw [discard, List.filterMap_append, List.filterMap_append, cleared, answerAll_evictions]
  exact failWaiting_evictions _

/-- An actor that lets pushes wait loses no item, whatever happens. -/
theorem Reaction.spares {event : Event α} (reaction : Reaction listening before event after notices)
    (blocking : before.policy = .block) : Spares after notices := by
  have refused (event : Event α) : (afterEnd listening event).filterMap Notice.eviction? = [] := by
    rw [afterEnd_eq, answerAll_evictions]
  cases reaction with
  | refuses event stopped => exact ⟨blocking, refused event⟩
  | shutsOut item => exact ⟨blocking, refused (.push item true)⟩
  | letsIn running entry => exact settle_spares (entry.spares blocking)
  | takes request running =>
      have arrived : Spares { before with takers := before.takers ++ [request] } [] :=
        ⟨blocking, rfl⟩
      exact settle_spares arrived
  | tells request word =>
      refine ⟨blocking, ?_⟩
      rw [← answerAll_singleton, answerAll_evictions]
  | closes running => exact settle_spares ⟨blocking, answerAll_evictions _ _⟩
  | discards => exact discard_spares blocking
  | _ => exact ⟨blocking, rfl⟩

/-- Where pushes wait for room, no run loses an item to overflow. -/
theorem run_spares {actor : Actor α} (blocking : actor.policy = .block) (events : Told α) :
    Spares (actor.run events).1 (actor.run events).2 := by
  induction events generalizing actor with
  | nil => exact ⟨blocking, rfl⟩
  | cons event rest ih =>
      obtain ⟨listening, event⟩ := event
      have first := (handle_reaction listening actor event).spares blocking
      have final := ih first.policy
      exact ⟨final.policy, List.filterMap_append.trans
        (congrArg₂ (· ++ ·) first.evictions final.evictions)⟩

end Actor

/-! ## Pushes are requests of their own -/

/-- Every item that is pushed belongs to a request for a push. -/
theorem mem_requestsOfOperations {operations : List (Operation α)} {replies : List (Reply α)}
    {item : Item α} (member : item ∈ (ofOperations operations replies).pushed) :
    (item.push, .push) ∈ requestsOfOperations operations replies := by
  induction operations generalizing replies with
  | nil => cases member
  | cons operation rest ih =>
      cases replies with
      | nil => cases member
      | cons reply replies =>
          rw [requestsOfOperations, List.mem_append]
          refine (List.mem_append.mp member).imp (fun now => ?_) ih
          obtain ⟨value, pushes, issued⟩ := Option.bind_eq_some_iff.mp (Option.mem_toList.mp now)
          obtain ⟨issue, told, rfl⟩ := Option.map_eq_some_iff.mp issued
          have asks : operation.purpose? = some .push := by
            cases operation <;> first
              | rfl
              | cases pushes
          rw [Option.mem_toList, Operation.request?, asks, told]
          rfl

/-- The request of a pushed value is a push. -/
theorem mem_requestsOf {steps : List (List (Operation α))} {reports : List (World.Report α)}
    {item : Item α} (member : item ∈ (ofRun steps reports).pushed) :
    (item.push, .push) ∈ requestsOf steps reports := by
  induction steps generalizing reports with
  | nil => cases member
  | cons operations rest ih =>
      cases reports with
      | nil => cases member
      | cons report reports =>
          rw [requestsOf, List.mem_append]
          refine (List.mem_append.mp member).imp (fun now => ?_) ih
          have pushes :
              (ofOperations operations report.replies ++ ofSettled report.settled).pushed =
                (ofOperations operations report.replies).pushed := List.append_nil _
          exact mem_requestsOfOperations (pushes ▸ now)

/-- A push that is pending in a quiet mailbox is blocked. -/
theorem Quiet.blocked {steps : List (List (Operation α))} {reports : List (World.Report α)}
    (quiet : Quiet mailbox (requestsOf steps reports)) {item : Item α}
    (member : item ∈ (ofRun steps reports).pushed) (waits : mailbox.listening item.push = true) :
    item.push ∈ mailbox.actor.blocked.map Item.push := by
  obtain ⟨pending, present, same⟩ := List.mem_map.mp ((mailbox.listening_iff item.push).mp waits)
  obtain ⟨purpose, made, reason⟩ := quiet.reasons pending present
  rw [same] at made reason
  have once : ((requestsOf steps reports).map Prod.fst).Nodup := by
    rw [quiet.numbered]
    exact List.nodup_range
  cases congrArg Prod.snd (List.inj_on_of_nodup_map once made (mem_requestsOf member) rfl)
  exact reason.1

/-! ## Turns -/

/-- What a run of a mailbox with a policy tells of the order of pushes and takes. -/
structure InTurn (policy : Policy) (mailbox : Mailbox α) (told : Told α) (history : History α) :
    Prop where
  /-- The pushed values are numbered in the order in which they were pushed. -/
  numbered : (history.pushed.map Item.push).Pairwise (· < ·)
  /-- The actor gets them in this order, and gets all of them as long as it runs. -/
  received : itemsOf told <+: history.pushed ∧
    (mailbox.actor.ended = false → itemsOf told = history.pushed)
  /-- They are handed over in this order, each to the take that ends with it. -/
  delivered : (history.handed.map fun entry => entry.2.push).Pairwise (· < ·) ∧
    history.handed.Perm history.taken
  /-- Of two takes the earlier one gets the earlier value. -/
  matched : ∀ first ∈ history.taken, ∀ second ∈ history.taken,
    first.1 < second.1 → first.2.push < second.2.push
  /-- Pushes are acknowledged in this order, and none before an earlier one that is waited for. -/
  acknowledged : (history.notices.filterMap Notice.accepted?).Pairwise (· < ·) ∧
    ∀ item ∈ history.acknowledged, ∀ earlier ∈ history.pushed, earlier.push < item.push →
      mailbox.listening earlier.push = false
  /-- Where pushes wait for room, the values handed over and the buffered ones are those that were
  acknowledged. -/
  kept : policy = .block → history.givenUp = false →
    history.handed.map Prod.snd ++ mailbox.actor.buffer = history.acknowledged

/-- Where takes and items are handed out in order, the earlier take gets the earlier item. -/
theorem matched_of_pairwise {handed : List (RequestId × Item α)}
    (takers : (handed.map Prod.fst).Pairwise (· < ·))
    (items : (handed.map fun entry => entry.2.push).Pairwise (· < ·)) :
    ∀ first ∈ handed, ∀ second ∈ handed, first.1 < second.1 → first.2.push < second.2.push := by
  rw [List.pairwise_map] at takers items
  have itself : ∀ entry ∈ handed, entry.1 < entry.1 → entry.2.push < entry.2.push :=
    fun entry _ less => absurd less (Nat.lt_irrefl entry.1)
  have forwards : handed.Pairwise fun first second =>
      first.1 < second.1 → first.2.push < second.2.push :=
    items.imp fun {first second} less (_ : first.1 < second.1) => less
  have backwards : handed.Pairwise fun second first =>
      first.1 < second.1 → first.2.push < second.2.push :=
    takers.imp fun less other => absurd less (Nat.lt_asymm other)
  intro first member second present
  exact forwards.forall_of_forall_of_flip itself backwards member present

/-- Two lists with the same items, both in the order of their pushes, are equal. -/
theorem eq_of_perm_of_numbered {items others : List (Item α)} (perm : items.Perm others)
    (first : (items.map Item.push).Pairwise (· < ·))
    (second : (others.map Item.push).Pairwise (· < ·)) : items = others := by
  rw [List.pairwise_map] at first second
  exact perm.eq_of_pairwise (fun _ _ _ _ less more => absurd less (Nat.lt_asymm more)) first second

/-- First come, first served: in every run of a mailbox, the actor gets pushes in the order in which
they were issued, and values are handed over, and takes answered, in the same order. -/
theorem run_inTurn (capacity : Nat) (policy : Policy) (slots : Nat)
    (steps : List (List (Operation α))) :
    let start : World α := World.start capacity policy slots
    let final := start.run steps
    let history := ofRun steps final.2
    start.mailbox.actor.run (start.told steps) = (final.1.mailbox.actor, history.notices) ∧
      InTurn policy final.1.mailbox (start.told steps) history := by
  intro start final history
  have told : start.mailbox.actor.run (start.told steps) =
      (final.1.mailbox.actor, history.notices) := start.run_told steps
  refine ⟨told, ?_⟩
  have opened : InLine start.mailbox [] [] :=
    ⟨List.prefix_rfl, fun _ => rfl, .nil, fun _ member => absurd member List.not_mem_nil, .nil,
      fun _ member => absurd member List.not_mem_nil⟩
  have inLine : InLine final.1.mailbox (start.told steps) history.pushed :=
    opened.run (.inl rfl) steps
  have quiet : Quiet final.1.mailbox (requestsOf steps final.2) :=
    World.quiet_run capacity policy slots steps
  have fresh : Books start.mailbox History.empty := Books.fresh capacity policy slots
  obtain ⟨books, seen⟩ := fresh.run rfl steps
  have arrived : final.1.mailbox.arrivals (start.told steps) = itemsOf (start.told steps) := by
    rw [arrivals, quiet.served.pushes, quiet.served.overflow, List.append_nil, List.append_nil]
  have received := inLine.started
  rw [arrived] at received
  -- the actor keeps the order of what it has got
  have order := start.mailbox.actor.run_inOrder (Actor.new_atRest capacity policy)
    (start.told steps)
  rw [told] at order
  have items : (history.handed.map Prod.snd ++ final.1.mailbox.actor.buffer ++
      final.1.mailbox.actor.blocked).Sublist (itemsOf (start.told steps)) := order.items
  have takers : (history.handed.map Prod.fst ++ final.1.mailbox.actor.takers).Sublist
      (takersOf (start.told steps)) := order.takers
  have accepted : (history.notices.filterMap Notice.accepted? ++
      final.1.mailbox.actor.blocked.map Item.push).Sublist
        ((itemsOf (start.told steps)).map Item.push) := order.accepted
  have numbered : ((itemsOf (start.told steps)).map Item.push).Pairwise (· < ·) :=
    inLine.numbered.sublist (received.sublist.map Item.push)
  have called : (takersOf (start.told steps)).Pairwise (· < ·) :=
    inLine.called.sublist (List.sublist_append_left ..)
  have kept : ((history.handed.map Prod.snd ++ final.1.mailbox.actor.buffer).map
      Item.push).Pairwise (· < ·) :=
    numbered.sublist (((List.sublist_append_left ..).trans items).map Item.push)
  have delivered : (history.handed.map fun entry => entry.2.push).Pairwise (· < ·) := by
    rw [List.map_append, List.map_map] at kept
    exact kept.sublist (List.sublist_append_left ..)
  have conserved : Conserved final.1.mailbox history := books.conserved seen
  refine
    { numbered := inLine.numbered
      received := ⟨received, fun running => arrived ▸ inLine.whole running⟩
      delivered := ⟨delivered, conserved.handed⟩
      matched := fun first member second present => ?_
      acknowledged := ⟨?_, fun item member earlier pushed before => ?_⟩
      kept := fun blocking undiscarded => ?_ }
  · exact matched_of_pairwise (called.sublist ((List.sublist_append_left ..).trans takers))
      delivered first (conserved.handed.mem_iff.mpr member) second
      (conserved.handed.mem_iff.mpr present)
  · exact numbered.sublist ((List.sublist_append_left ..).trans accepted)
  · -- a push that is waited for is blocked, behind all those that have been acknowledged
    by_contra waits
    rw [Bool.not_eq_false] at waits
    have told := (books.mem_accepted_iff seen).mpr ((books.mem_acknowledged_iff seen).mp member).2
    have apart := (List.pairwise_append.mp (numbered.sublist accepted)).2.2
    exact Nat.lt_asymm before (apart _ told _ (quiet.blocked pushed waits))
  · have spared : history.overflowed = [] := by
      have blocks : start.mailbox.actor.policy = .block := blocking
      have spares := Actor.run_spares blocks (start.told steps)
      rw [told] at spares
      exact spares.evictions
    have cleared : history.cleared = [] := (books.intact undiscarded).2.2
    have fates := conserved.fates
    rw [spared, cleared, List.map_nil, List.append_nil, List.append_nil] at fates
    refine eq_of_perm_of_numbered (.symm (fates.trans ?_)) kept ?_
    · exact (conserved.handed.symm.map Prod.snd).append_right _
    · exact inLine.numbered.sublist (List.filter_sublist.map Item.push)

end CommandScript.Mailbox
