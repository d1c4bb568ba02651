import CommandScript.Proofs.Mailbox.Rest
import CommandScript.Proofs.Mailbox.Service

/-!
# Abandoned requests are invisible

A client may give up on a push, a take or a wait while the request stands in one of the queues of
the actor. The actor drops such a request only when it comes to it, and until then the request
stands between others, or before a full or an empty buffer. None of this shows: with the abandoned
requests taken out of its queues the actor answers every later event as it does with them, and it
publishes the same numbers (`CommandScript.Mailbox.run_erasure`).

The work of the actor commutes with taking the abandoned requests out, one piece of its work after
the other. Two actors that agree once those requests are taken out agree so for good.
-/

namespace CommandScript.Mailbox

variable {α : Type}

/-! ## Giving up for good -/

/-- A first look at the client of a push or of a take finds that a client in `gone` has left. -/
def Event.without (gone : RequestId → Bool) : Event α → Event α
  | .push item present => .push item (present && !gone item.push)
  | .take request present => .take request (present && !gone request)
  | event => event

/-- An event still comes from the same request. -/
@[simp] theorem Event.request?_without (gone : RequestId → Bool) (event : Event α) :
    (event.without gone).request? = event.request? := by
  cases event <;> rfl

/-- Of those who listen, the ones outside `gone`. -/
def others (gone listening : RequestId → Bool) (request : RequestId) : Bool :=
  listening request && !gone request

/-- The same events, told after the clients in `gone` have given up for good. Which of the others
listen is as before. -/
def Told.without (gone : RequestId → Bool) (events : Told α) : Told α :=
  events.map fun entry => (others gone entry.1, entry.2.without gone)

/-- Requests are erased from what is told event by event. -/
theorem Told.without_cons (gone listening : RequestId → Bool) (event : Event α)
    (rest : Told α) :
    Told.without gone ((listening, event) :: rest) =
      (others gone listening, event.without gone) :: Told.without gone rest :=
  rfl

/-- What is seen of an actor when it has handled an event. -/
structure Sight (α : Type) where
  /-- The answers that reach clients, and the items that are lost. -/
  notices : List (Notice α)
  buffer : List (Item α)
  depth : Nat
  discarded : Nat
deriving DecidableEq, Repr

namespace Actor

/-- What is seen of the actor, with the notices of the event that it has handled. -/
def sight (actor : Actor α) (notices : List (Notice α)) : Sight α :=
  ⟨notices, actor.buffer, actor.depth, actor.discarded⟩

/-- What is seen of an actor after each of several events. -/
def trace (actor : Actor α) : Told α → List (Sight α)
  | [] => []
  | (listening, event) :: rest =>
    let (after, notices) := actor.handle listening event
    after.sight notices :: after.trace rest

/-- The actor with the requests in `gone` taken out of its queues. -/
def erase (gone : RequestId → Bool) (actor : Actor α) : Actor α :=
  { actor with
    blocked := actor.blocked.filter fun item => !gone item.push
    takers := actor.takers.filter fun request => !gone request
    waiters := actor.waiters.filter fun request => !gone request }

section

variable {gone listening : RequestId → Bool}

@[simp] theorem erase_erase (actor : Actor α) :
    (actor.erase gone).erase gone = actor.erase gone := by
  simp [erase]

@[simp] theorem erase_withBuffer (actor : Actor α) (buffer : List (Item α)) :
    (actor.erase gone).withBuffer buffer = (actor.withBuffer buffer).erase gone :=
  rfl

/-- What is seen of a mailbox does not depend on the requests that are erased. -/
@[simp] theorem sight_erase (gone : RequestId → Bool) (actor : Actor α)
    (notices : List (Notice α)) : (actor.erase gone).sight notices = actor.sight notices :=
  rfl

/-- What is seen of an actor does not depend on requests in `gone`. -/
theorem sight_of_erase {left right : Actor α} (same : left.erase gone = right.erase gone)
    (notices : List (Notice α)) : left.sight notices = right.sight notices := by
  rw [← sight_erase gone left, same, sight_erase]

/-! ## Each piece of work commutes -/

/-- Nobody in `gone` listens. -/
def Forsaken (gone listening : RequestId → Bool) : Prop :=
  ∀ request, gone request = true → listening request = false

/-- Nobody listens to the erased requests any more. -/
theorem forsaken_others (gone listening : RequestId → Bool) :
    Forsaken gone (others gone listening) := by
  intro request gave
  simp [others, gave]

/-- A request to which somebody listens is not erased. -/
theorem Forsaken.not_gone (forsaken : Forsaken gone listening) {request : RequestId}
    (hears : listening request = true) : gone request = false := by
  cases left : gone request with
  | true => exact absurd (forsaken request left) (hears ▸ Bool.noConfusion)
  | false => rfl

/-- An erased request gets no answer. -/
theorem answer_of_gone (forsaken : Forsaken gone listening) {request : RequestId}
    (left : gone request = true) (reply : Answer α) : answer listening request reply = [] := by
  simp [answer, forsaken request left]

/-- An answer to several requests reaches nobody in `gone`. -/
theorem answerAll_filter (forsaken : Forsaken gone listening) (requests : List RequestId)
    (reply : Answer α) :
    answerAll listening (requests.filter fun request => !gone request) reply =
      answerAll listening requests reply := by
  induction requests with
  | nil => rfl
  | cons request rest ih =>
      have first : answerAll listening (request :: rest) reply =
          answer listening request reply ++ answerAll listening rest reply := rfl
      cases left : gone request with
      | true =>
          rw [List.filter_cons_of_neg (by simp [left]), ih, first, answer_of_gone forsaken left,
            List.nil_append]
      | false =>
          rw [List.filter_cons_of_pos (by simp [left]), first, ← ih]
          rfl

/-- The same clients are answered without the erased pushes. -/
theorem answerAll_pushes_filter (forsaken : Forsaken gone listening) (items : List (Item α))
    (reply : Answer α) :
    answerAll listening ((items.filter fun item => !gone item.push).map Item.push) reply =
      answerAll listening (items.map Item.push) reply := by
  rw [← answerAll_filter forsaken (items.map Item.push), List.filter_map]
  rfl

/-- A push is accepted alike with or without the erased requests. -/
theorem accept_erase (actor : Actor α) (item : Item α) :
    (actor.erase gone).accept listening item =
      ((actor.accept listening item).1.erase gone, (actor.accept listening item).2) := by
  cases hears : listening item.push with
  | true => simp only [accept_of_heard _ hears]; rfl
  | false => simp only [accept_of_unheard _ hears]; rfl

/-- An item is evicted alike with or without the erased requests. -/
theorem acceptEvicting_erase (actor : Actor α) (item : Item α) (oldest : Bool) :
    (actor.erase gone).acceptEvicting listening item oldest =
      ((actor.acceptEvicting listening item oldest).1.erase gone,
        (actor.acceptEvicting listening item oldest).2) := by
  have buffer : (actor.erase gone).buffer = actor.buffer := rfl
  unfold acceptEvicting
  simp only [buffer, erase_withBuffer, accept_erase]
  split <;> split <;> rfl

/-- A full buffer leaves blocked pushes as they are. -/
theorem fill_of_full (listening : RequestId → Bool) (actor : Actor α) (items : List (Item α))
    (full : ¬ actor.buffer.length < actor.capacity) :
    actor.fill listening items = ({ actor with blocked := items }, []) := by
  cases items with
  | nil => rfl
  | cons item rest => simp only [fill, full, if_false]

/-- The buffer is filled alike with or without the erased pushes. -/
theorem fill_erase (forsaken : Forsaken gone listening) (actor : Actor α)
    (items : List (Item α)) :
    (actor.erase gone).fill listening (items.filter fun item => !gone item.push) =
      ((actor.fill listening items).1.erase gone, (actor.fill listening items).2) := by
  induction items generalizing actor with
  | nil => rfl
  | cons item rest ih =>
      by_cases room : actor.buffer.length < actor.capacity
      · have space : (actor.erase gone).buffer.length < (actor.erase gone).capacity := room
        cases hears : listening item.push with
        | true =>
            have stays : gone item.push = false := forsaken.not_gone hears
            rw [List.filter_cons_of_pos (by simp [stays])]
            simp only [fill, room, space, hears, if_true, accept_erase, ih]
        | false =>
            have passed : actor.fill listening (item :: rest) = actor.fill listening rest := by
              simp [fill, room, hears]
            rw [passed]
            cases left : gone item.push with
            | true => rw [List.filter_cons_of_neg (by simp [left]), ih]
            | false =>
                rw [List.filter_cons_of_pos (by simp [left]), ← ih]
                simp [fill, space, hears]
      · rw [fill_of_full listening actor _ room, fill_of_full listening (actor.erase gone) _ room]
        rfl

/-- The same clients wake with or without the erased requests. -/
theorem wake_erase (forsaken : Forsaken gone listening) (actor : Actor α) :
    (actor.erase gone).wake listening =
      ((actor.wake listening).1.erase gone, (actor.wake listening).2) := by
  have told := answerAll_filter (α := α) forsaken actor.waiters .ready
  simp only [wake, erase, told, List.filter_nil]

theorem deliver_erase (actor : Actor α) (taker : RequestId) :
    (actor.erase gone).deliver listening taker =
      ((actor.deliver listening taker).1.erase gone, (actor.deliver listening taker).2) := by
  have buffer : (actor.erase gone).buffer = actor.buffer := rfl
  unfold deliver
  rw [buffer]
  cases actor.buffer with
  | nil => rfl
  | cons oldest rest =>
      cases hears : listening taker with
      | true => simp only [if_true]; rfl
      | false => simp only [Bool.false_eq_true, if_false]; rfl

/-- Where pushes are blocked only by a full buffer, none of them moves. -/
theorem fill_idle (listening : RequestId → Bool) (actor : Actor α)
    (full : actor.blocked ≠ [] → ¬ actor.buffer.length < actor.capacity) :
    actor.fill listening actor.blocked = (actor, []) := by
  by_cases unblocked : actor.blocked = []
  · rw [unblocked, fill, ← unblocked]
  · rw [fill_of_full listening actor _ (full unblocked)]

/-- Where pushes are blocked only by a full buffer, and only the buffer of an open mailbox that has no
items is waited for, nothing moves. -/
theorem settle_idle (listening : RequestId → Bool) {actor : Actor α}
    (full : actor.blocked ≠ [] → ¬ actor.buffer.length < actor.capacity)
    (drained : actor.takers ≠ [] ∨ actor.waiters ≠ [] →
      actor.buffer = [] ∧ actor.closed = false) :
    actor.settle listening = (actor, []) := by
  have filled := fill_idle listening actor full
  by_cases asked : actor.takers ≠ [] ∨ actor.waiters ≠ []
  · obtain ⟨empty, isOpen⟩ := drained asked
    have served : actor.serveTakers listening actor.takers = (actor, []) := by
      obtain ⟨_, _, buffer, _, takers, _, _, _, _, _, _⟩ := actor
      subst empty
      cases takers <;> simp [serveTakers, filled]
    simp [settle, served, isOpen]
  · rw [not_or, not_not, not_not] at asked
    obtain ⟨takers, waiters⟩ := asked
    cases actor
    subst takers waiters
    simp [settle, serveTakers, filled, wake, failWaiting, answerAll]

/-- When there is an item once blocked pushes have moved, takers are served as if everybody had been
told of it before. -/
theorem serveTakers_of_occupied (listening : RequestId → Bool) (actor : Actor α)
    (takers : List RequestId)
    (occupied : (actor.fill listening actor.blocked).1.buffer.isEmpty = false) :
    let filled := actor.fill listening actor.blocked
    let woken := filled.1.wake listening
    actor.serveTakers listening takers =
      ((woken.1.serveTakers listening takers).1,
        filled.2 ++ woken.2 ++ (woken.1.serveTakers listening takers).2) := by
  intro filled woken
  have filledAgain : woken.1.fill listening woken.1.blocked = (woken.1, []) :=
    fill_idle listening woken.1 (fill_full listening actor actor.blocked)
  have wokenAgain : woken.1.wake listening = (woken.1, []) := rfl
  have still : woken.1.buffer.isEmpty = false := occupied
  cases takers with
  | nil => simp [serveTakers, filledAgain, wokenAgain, still, occupied, filled, woken]
  | cons taker rest =>
      simp [serveTakers, filledAgain, wokenAgain, still, occupied, filled, woken]

/-- The depth is published whenever the buffer is filled. -/
theorem fill_published (listening : RequestId → Bool) (actor : Actor α) (items : List (Item α))
    (published : actor.depth = actor.buffer.length) :
    (actor.fill listening items).1.depth = (actor.fill listening items).1.buffer.length := by
  induction items generalizing actor with
  | nil => exact published
  | cons item rest ih =>
      by_cases room : actor.buffer.length < actor.capacity
      · cases hears : listening item.push with
        | true =>
            simp only [fill, room, hears, if_true]
            apply ih
            rw [accept_of_heard actor hears]
            rfl
        | false =>
            simp only [fill, room, hears, if_true, Bool.false_eq_true, if_false]
            exact ih actor published
      · rw [fill_of_full listening actor _ room]
        exact published

/-- The depth is published whenever an item is delivered. -/
theorem deliver_published (listening : RequestId → Bool) (actor : Actor α) (taker : RequestId)
    (published : actor.depth = actor.buffer.length) :
    (actor.deliver listening taker).1.depth = (actor.deliver listening taker).1.buffer.length := by
  unfold deliver
  split
  · exact published
  · split <;> rfl

/-- A taker that does not listen takes nothing. -/
theorem deliver_unheard (actor : Actor α) {taker : RequestId} (deaf : listening taker = false)
    (published : actor.depth = actor.buffer.length) :
    actor.deliver listening taker = (actor, []) := by
  cases buffer : actor.buffer with
  | nil => simp only [deliver, buffer]
  | cons oldest rest => rw [deliver_of_unheard buffer deaf, withBuffer, ← published]

/-- A taker in `gone` changes nothing, wherever it stands. -/
theorem serveTakers_of_gone (forsaken : Forsaken gone listening) (actor : Actor α)
    {taker : RequestId} (left : gone taker = true) (rest : List RequestId)
    (published : actor.depth = actor.buffer.length) :
    (actor.serveTakers listening (taker :: rest)).1.erase gone =
        (actor.serveTakers listening rest).1.erase gone ∧
      (actor.serveTakers listening (taker :: rest)).2 =
        (actor.serveTakers listening rest).2 := by
  cases empty : (actor.fill listening actor.blocked).1.buffer.isEmpty with
  | true =>
      have dropped : (taker :: rest).filter (fun request => !gone request) =
          rest.filter fun request => !gone request :=
        List.filter_cons_of_neg (by simp [left])
      cases rest <;> simp [serveTakers, empty, erase, dropped]
  | false =>
      have same := serveTakers_of_occupied listening actor rest empty
      have told := fill_published listening actor actor.blocked published
      have stays : ((actor.fill listening actor.blocked).1.wake listening).1.deliver
          listening taker = (((actor.fill listening actor.blocked).1.wake listening).1, []) :=
        deliver_unheard _ (forsaken taker left) told
      simp only [] at same
      rw [same]
      simp [serveTakers, empty, stays]

/-- Takers that wait again are those outside `gone`. -/
theorem erase_takers (actor : Actor α) (takers : List RequestId) :
    ({ actor.erase gone with takers := takers.filter fun request => !gone request } : Actor α) =
      ({ actor with takers := takers } : Actor α).erase gone :=
  rfl

/-- Takers are served alike with or without the erased ones. -/
theorem serveTakers_erase (forsaken : Forsaken gone listening) (actor : Actor α)
    (takers : List RequestId) (published : actor.depth = actor.buffer.length) :
    (actor.erase gone).serveTakers listening (takers.filter fun request => !gone request) =
      ((actor.serveTakers listening takers).1.erase gone,
        (actor.serveTakers listening takers).2) := by
  have filled (actor : Actor α) : (actor.erase gone).fill listening (actor.erase gone).blocked =
      ((actor.fill listening actor.blocked).1.erase gone,
        (actor.fill listening actor.blocked).2) := fill_erase forsaken actor actor.blocked
  have buffer (actor : Actor α) : (actor.erase gone).buffer = actor.buffer := rfl
  induction takers generalizing actor with
  | nil =>
      cases empty : (actor.fill listening actor.blocked).1.buffer.isEmpty with
      | true =>
          simp only [List.filter_nil, serveTakers, filled, buffer, empty, if_true]
          rfl
      | false =>
          simp only [List.filter_nil, serveTakers, filled, buffer, wake_erase forsaken, empty]
          rfl
  | cons taker rest ih =>
      cases left : gone taker with
      | true =>
          obtain ⟨same, told⟩ := serveTakers_of_gone forsaken actor left rest published
          rw [List.filter_cons_of_neg (by simp [left]), same, told]
          exact ih actor published
      | false =>
          have stays : (taker :: rest).filter (fun request => !gone request) =
              taker :: rest.filter fun request => !gone request :=
            List.filter_cons_of_pos (by simp [left])
          cases empty : (actor.fill listening actor.blocked).1.buffer.isEmpty with
          | true =>
              rw [stays]
              simp only [serveTakers, filled, buffer, empty, if_true]
              rw [← erase_takers (actor.fill listening actor.blocked).1 (taker :: rest), stays]
              rfl
          | false =>
              have told := deliver_published listening
                ((actor.fill listening actor.blocked).1.wake listening).1 taker
                (fill_published listening actor actor.blocked published)
              simp only [stays, serveTakers, filled, buffer, wake_erase forsaken, empty,
                deliver_erase, ih _ told, Bool.false_eq_true, if_false]

/-- An actor settles alike with or without the erased requests. -/
theorem settle_erase (forsaken : Forsaken gone listening) (actor : Actor α)
    (published : actor.depth = actor.buffer.length) :
    (actor.erase gone).settle listening =
      ((actor.settle listening).1.erase gone, (actor.settle listening).2) := by
  have served : (actor.erase gone).serveTakers listening (actor.erase gone).takers =
      ((actor.serveTakers listening actor.takers).1.erase gone,
        (actor.serveTakers listening actor.takers).2) :=
    serveTakers_erase forsaken actor actor.takers published
  have failed (actor : Actor α) : (actor.erase gone).failWaiting listening =
      ((actor.failWaiting listening).1.erase gone, (actor.failWaiting listening).2) := by
    have takers := answerAll_filter (α := α) forsaken actor.takers .notRunning
    have waiters := answerAll_filter (α := α) forsaken actor.waiters .notRunning
    simp only [failWaiting, erase, takers, waiters, List.filter_nil]
  have buffer (actor : Actor α) : (actor.erase gone).buffer = actor.buffer := rfl
  have closed (actor : Actor α) : (actor.erase gone).closed = actor.closed := rfl
  unfold settle
  simp only [served, failed, buffer, closed]
  split <;> rfl

/-! ## Events -/

theorem overflow_erase (actor : Actor α) {item : Item α} (stays : gone item.push = false) :
    (actor.erase gone).overflow listening item =
      ((actor.overflow listening item).1.erase gone, (actor.overflow listening item).2) := by
  have policy : (actor.erase gone).policy = actor.policy := rfl
  unfold overflow
  rw [policy]
  cases actor.policy with
  | block => simp [erase, stays]
  | dropHead => exact acceptEvicting_erase actor item true
  | dropIncoming => rfl
  | dropTail => exact acceptEvicting_erase actor item false

/-- A push is dealt with alike. -/
theorem onPush_erase (forsaken : Forsaken gone listening) (actor : Actor α) (rest : actor.AtRest)
    {item : Item α} (stays : gone item.push = false) :
    (actor.erase gone).onPush listening item =
      ((actor.onPush listening item).1.erase gone, (actor.onPush listening item).2) := by
  have closed : (actor.erase gone).closed = actor.closed := rfl
  have buffer : (actor.erase gone).buffer = actor.buffer := rfl
  have capacity : (actor.erase gone).capacity = actor.capacity := rfl
  cases isClosed : actor.closed with
  | true => simp only [onPush, closed, isClosed, if_true]
  | false =>
      by_cases room : actor.buffer.length < actor.capacity
      · have published : (actor.accept listening item).1.depth =
            (actor.accept listening item).1.buffer.length :=
          ((accept_entry actor item room).orderly rest.orderly).published
        simp only [onPush, closed, isClosed, buffer, capacity, room, accept_erase,
          settle_erase forsaken _ published, if_true, Bool.false_eq_true, if_false]
      · have published : (actor.overflow listening item).1.depth =
            (actor.overflow listening item).1.buffer.length :=
          ((overflow_entry actor item isClosed room).orderly rest.orderly).published
        simp only [onPush, closed, isClosed, buffer, capacity, room, overflow_erase actor stays,
          settle_erase forsaken _ published, Bool.false_eq_true, if_false]

theorem onTake_erase (forsaken : Forsaken gone listening) (actor : Actor α) (rest : actor.AtRest)
    {request : RequestId} (stays : gone request = false) :
    (actor.erase gone).onTake listening request =
      ((actor.onTake listening request).1.erase gone, (actor.onTake listening request).2) := by
  have joined : (actor.takers ++ [request]).filter (fun request => !gone request) =
      actor.takers.filter (fun request => !gone request) ++ [request] := by
    simp [stays]
  have settled := settle_erase forsaken { actor with takers := actor.takers ++ [request] }
    rest.published
  rw [← erase_takers, joined] at settled
  exact settled

theorem onWait_erase (actor : Actor α) {request : RequestId} (stays : gone request = false) :
    (actor.erase gone).onWait listening request =
      ((actor.onWait listening request).1.erase gone, (actor.onWait listening request).2) := by
  have buffer : (actor.erase gone).buffer = actor.buffer := rfl
  have closed : (actor.erase gone).closed = actor.closed := rfl
  unfold onWait
  rw [buffer, closed]
  split
  · rfl
  · split
    · rfl
    · simp [erase, stays]

theorem close_erase (forsaken : Forsaken gone listening) (actor : Actor α) (rest : actor.AtRest) :
    (actor.erase gone).close listening =
      ((actor.close listening).1.erase gone, (actor.close listening).2) := by
  have closed : (actor.erase gone).closed = actor.closed := rfl
  cases isClosed : actor.closed with
  | true => simp only [close, closed, isClosed, if_true]
  | false =>
      have told : answerAll listening ((actor.erase gone).blocked.map Item.push) .notRunning =
          answerAll listening (actor.blocked.map Item.push) .notRunning :=
        answerAll_pushes_filter forsaken actor.blocked (.notRunning : Answer α)
      have emptied : ({ actor.erase gone with closed := true, blocked := [] } : Actor α) =
          ({ actor with closed := true, blocked := [] } : Actor α).erase gone := rfl
      unfold close
      rw [closed, isClosed, told, emptied,
        settle_erase forsaken { actor with closed := true, blocked := [] } rest.published]
      rfl

theorem discard_erase (forsaken : Forsaken gone listening) (actor : Actor α) :
    (actor.erase gone).discard listening =
      ((actor.discard listening).1.erase gone, (actor.discard listening).2) := by
  have blocked := answerAll_pushes_filter forsaken actor.blocked .notRunning
  have takers := answerAll_filter (α := α) forsaken actor.takers .notRunning
  have waiters := answerAll_filter (α := α) forsaken actor.waiters .notRunning
  simp only [discard, failWaiting, withBuffer, erase, blocked, takers, waiters, List.filter_nil]

/-- A refused event of a client in `gone` is not told. -/
theorem afterEnd_of_gone (forsaken : Forsaken gone listening) {event : Event α}
    {request : RequestId} (brings : event.request? = some request) (left : gone request = true) :
    afterEnd listening (event.without gone) = [] := by
  cases event with
  | push item present =>
      obtain rfl : item.push = request := Option.some.inj brings
      exact answer_of_gone forsaken left _
  | take taker present =>
      obtain rfl : taker = request := Option.some.inj brings
      exact answer_of_gone forsaken left _
  | wait waiter =>
      obtain rfl : waiter = request := Option.some.inj brings
      exact answer_of_gone forsaken left _
  | close => cases brings
  | discard => cases brings

/-- An event that comes from a client in `gone` tells nothing, and all that it leaves is a request
in `gone`. -/
theorem handle_of_gone (forsaken : Forsaken gone listening) (actor : Actor α) {event : Event α}
    {request : RequestId} (brings : event.request? = some request) (left : gone request = true) :
    (actor.handle listening (event.without gone)).1.erase gone = actor.erase gone ∧
      (actor.handle listening (event.without gone)).2 = [] := by
  cases running : actor.ended with
  | true =>
      rw [handle_of_ended listening _ running]
      exact ⟨rfl, afterEnd_of_gone forsaken brings left⟩
  | false =>
      cases event with
      | push item present =>
          obtain rfl : item.push = request := Option.some.inj brings
          simp [handle, running, Event.without, left]
      | take taker present =>
          obtain rfl : taker = request := Option.some.inj brings
          simp [handle, running, Event.without, left]
      | wait waiter =>
          obtain rfl : waiter = request := Option.some.inj brings
          have silent (reply : Answer α) := answer_of_gone forsaken left reply
          simp only [handle, running, Event.without, onWait, silent, Bool.false_eq_true, if_false]
          split
          · exact ⟨rfl, rfl⟩
          · split
            · exact ⟨rfl, rfl⟩
            · exact ⟨by simp [erase, left, running], rfl⟩
      | close => cases brings
      | discard => cases brings

/-- An event of a client outside `gone` is handled as if the requests in `gone` had been taken out
before. -/
theorem handle_erase (forsaken : Forsaken gone listening) (actor : Actor α) (rest : actor.AtRest)
    (event : Event α) (stays : ∀ request, event.request? = some request → gone request = false) :
    (actor.erase gone).handle listening event =
      ((actor.handle listening event).1.erase gone, (actor.handle listening event).2) := by
  cases running : actor.ended with
  | true =>
      have ended : (actor.erase gone).ended = true := running
      rw [handle_of_ended listening event running, handle_of_ended listening event ended]
  | false =>
      have going : (actor.erase gone).ended = false := running
      cases event with
      | push item present =>
          simp only [handle, running, going, onPush_erase forsaken actor rest (stays _ rfl)]
          cases present <;> rfl
      | take request present =>
          simp only [handle, running, going, onTake_erase forsaken actor rest (stays _ rfl)]
          cases present <;> rfl
      | wait request =>
          simp only [handle, running, going, onWait_erase actor (stays _ rfl)]
          rfl
      | close =>
          simp only [handle, running, going, close_erase forsaken actor rest]
          rfl
      | discard =>
          simp only [handle, running, going, discard_erase forsaken actor]
          rfl

/-- Two actors at rest that agree up to requests in `gone` handle an event alike. -/
theorem handle_congr (forsaken : Forsaken gone listening) {left right : Actor α}
    (leftRest : left.AtRest) (rightRest : right.AtRest)
    (same : left.erase gone = right.erase gone) (event : Event α) :
    (left.handle listening (event.without gone)).1.erase gone =
        (right.handle listening (event.without gone)).1.erase gone ∧
      (left.handle listening (event.without gone)).2 =
        (right.handle listening (event.without gone)).2 := by
  by_cases absent : ∃ request, event.request? = some request ∧ gone request = true
  · obtain ⟨request, brings, gave⟩ := absent
    obtain ⟨leftSame, leftTold⟩ := handle_of_gone forsaken left brings gave
    obtain ⟨rightSame, rightTold⟩ := handle_of_gone forsaken right brings gave
    exact ⟨leftSame.trans (same.trans rightSame.symm), leftTold.trans rightTold.symm⟩
  · have stays : ∀ request, (event.without gone).request? = some request →
        gone request = false := by
      intro request brings
      cases gave : gone request with
      | true => exact absurd ⟨request, by rwa [Event.request?_without] at brings, gave⟩ absent
      | false => rfl
    have leftStep := handle_erase forsaken left leftRest (event.without gone) stays
    have rightStep := handle_erase forsaken right rightRest (event.without gone) stays
    rw [same, rightStep, Prod.mk.injEq] at leftStep
    exact ⟨leftStep.1.symm, leftStep.2.symm⟩

/-! ## Runs -/

/-- Two actors at rest that agree up to requests in `gone` cannot be told apart once the clients of
these requests have given up. -/
theorem trace_congr {left right : Actor α} (leftRest : left.AtRest) (rightRest : right.AtRest)
    (same : left.erase gone = right.erase gone) (events : Told α) :
    left.trace (events.without gone) = right.trace (events.without gone) := by
  induction events generalizing left right with
  | nil => rfl
  | cons entry rest ih =>
      obtain ⟨listening, event⟩ := entry
      obtain ⟨after, told⟩ := handle_congr (forsaken_others gone listening) leftRest rightRest same
        event
      have next := ih (handle_atRest _ left leftRest (event.without gone))
        (handle_atRest _ right rightRest (event.without gone)) after
      have seen := sight_of_erase after
      simp only [Told.without_cons, trace, next, seen, told]

/-- An actor stays at rest without the erased requests. -/
theorem AtRest.erase (gone : RequestId → Bool) {actor : Actor α} (rest : actor.AtRest) :
    (actor.erase gone).AtRest where
  within := rest.within
  published := rest.published
  full := fun waiting => rest.full fun none => waiting (by simp [Actor.erase, none])
  drained := fun waiting => by
    obtain ⟨empty, isOpen, unblocked⟩ := rest.drained
      (waiting.imp (fun takers none => takers (by simp [Actor.erase, none]))
        fun waiters none => waiters (by simp [Actor.erase, none]))
    exact ⟨empty, isOpen, by simp [Actor.erase, unblocked]⟩
  stopped := fun ended => by
    obtain ⟨empty, none⟩ := rest.stopped ended
    simp only [held, List.append_eq_nil_iff, List.map_eq_nil_iff] at none
    exact ⟨empty, by simp [held, Actor.erase, none]⟩

end

end Actor

/-- A mailbox of any capacity and policy has handled any events, and the clients in `gone` give up
for good. From then on the actor without their requests is seen to do the same as the actor with
them: the same answers reach the same clients, the same items are lost, and the buffer, the depth
and the number of discarded items are the same after every event. A push, a take or a wait that
comes from such a client tells nothing and changes nothing, neither then nor later. -/
theorem run_erasure (capacity : Nat) (policy : Policy) (history : Told α)
    (gone : RequestId → Bool) :
    let actor := ((Actor.new capacity policy).run history).1
    (∀ events : Told α,
      (actor.erase gone).trace (events.without gone) = actor.trace (events.without gone)) ∧
    ∀ (listening : RequestId → Bool) (event : Event α) (request : RequestId),
      event.request? = some request → gone request = true → ∀ events : Told α,
        actor.trace (Told.without gone ((listening, event) :: events)) =
          actor.sight [] :: actor.trace (events.without gone) := by
  intro actor
  have rest : actor.AtRest := Actor.run_atRest _ (Actor.new_atRest capacity policy) history
  refine ⟨fun events => ?_, fun listening event request brings gave events => ?_⟩
  · exact Actor.trace_congr (rest.erase gone) rest (Actor.erase_erase actor) events
  · have forsaken := Actor.forsaken_others gone listening
    obtain ⟨same, silent⟩ := Actor.handle_of_gone forsaken actor brings gave
    have seen := Actor.sight_of_erase same []
    have later := Actor.trace_congr (Actor.handle_atRest _ actor rest _) rest same events
    simp only [Told.without_cons, Actor.trace, silent, seen, later]

/-- The push of a client that has given up stands blocked before a full buffer; a later wait of the
same client leaves no trace. -/
theorem run_erasure_blocked :
    let actor := ((Actor.new 1 .block).run
      [(fun _ => true, .push ⟨0, 'a'⟩ true), (fun _ => true, .push ⟨1, 'b'⟩ true)]).1
    actor.blocked = [⟨1, 'b'⟩] ∧ (actor.erase fun request => request == 1).blocked = [] ∧
      ∀ events : Told Char,
        actor.trace (Told.without (fun request => request == 1)
            ((fun _ => true, .wait 1) :: events)) =
          actor.sight [] :: actor.trace (events.without fun request => request == 1) :=
  ⟨rfl, rfl, (run_erasure 1 .block
    [(fun _ => true, .push ⟨0, 'a'⟩ true), (fun _ => true, .push ⟨1, 'b'⟩ true)]
    fun request => request == 1).2 (fun _ => true) (.wait 1) 1 rfl rfl⟩

end CommandScript.Mailbox
