import CommandScript.Proofs.Mailbox.Closing
import CommandScript.Proofs.Mailbox.Turns

/-!
# The order of pushes against takes does not matter

Where pushes wait for room, an actor loses nothing: what it hands over, buffers and keeps blocked
is, in this order, all that it had and all that came. Since at rest it hands over as much as it can,
nothing but the pushes in their order and the takes in theirs decides what it ends with, and who
gets what (`CommandScript.Mailbox.Actor.Agree.confluent`). Requests that nobody listens to do not
count. Once the input is closed only takes count (`CommandScript.Mailbox.Remains.run_calls`).
-/

namespace CommandScript.Mailbox

variable {α : Type}

/-- A push or a take, with what a look at its client says. -/
inductive Event.IsCall (listening : RequestId → Bool) : Event α → Prop where
  | push (item : Item α) : IsCall listening (.push item (listening item.push))
  | take (request : RequestId) : IsCall listening (.take request (listening request))

/-- The client that learns with a notice that there is an item. -/
def Notice.ready? : Notice α → Option RequestId
  | .answered request .ready => some request
  | _ => none

/-- The items whose clients listen to their pushes. -/
def live (listening : RequestId → Bool) (items : List (Item α)) : List (Item α) :=
  items.filter fun item => listening item.push

@[simp] theorem live_nil (listening : RequestId → Bool) :
    live listening ([] : List (Item α)) = [] :=
  rfl

@[simp] theorem live_append (listening : RequestId → Bool) (items others : List (Item α)) :
    live listening (items ++ others) = live listening items ++ live listening others :=
  List.filter_append ..

/-- An item to whose push somebody listens is live. -/
theorem live_cons_of_heard {listening : RequestId → Bool} {item : Item α}
    (hears : listening item.push = true) (rest : List (Item α)) :
    live listening (item :: rest) = item :: live listening rest :=
  List.filter_cons_of_pos hears

theorem live_cons_of_unheard {listening : RequestId → Bool} {item : Item α}
    (deaf : listening item.push = false) (rest : List (Item α)) :
    live listening (item :: rest) = live listening rest :=
  List.filter_cons_of_neg (by simp [deaf])

namespace Actor

/-- Which blocked pushes count is decided by those who hold them. -/
theorem live_blocked_congr {listening other : RequestId → Bool} {actor : Actor α}
    (same : ∀ request ∈ actor.held, listening request = other request) :
    live listening actor.blocked = live other actor.blocked := by
  refine List.filter_congr fun item member => same item.push ?_
  simp only [held, List.mem_append]
  exact .inl (.inl (List.mem_map_of_mem member))

/-- The takers to whom somebody listens are the same if the requests at hand are. -/
theorem filter_takers_congr {listening other : RequestId → Bool} {actor : Actor α}
    (same : ∀ request ∈ actor.held, listening request = other request) :
    actor.takers.filter listening = actor.takers.filter other := by
  refine List.filter_congr fun request member => same request ?_
  simp only [held, List.mem_append]
  exact .inl (.inr member)

/-! ## Nothing is lost -/

/-- From one state of an open actor to another no item is lost and none is added but those that
come, and the same holds of takes and of acknowledgements. -/
structure Lossless (listening : RequestId → Bool) (events : List (Event α)) (before after : Actor α)
    (notices : List (Notice α)) : Prop where
  same : SameMailbox before after
  waiters : after.waiters = []
  items : (notices.filterMap Notice.handed?).map Prod.snd ++
      (after.buffer ++ live listening after.blocked) =
    before.buffer ++ live listening before.blocked ++
      live listening (events.filterMap Event.item?)
  takers : (notices.filterMap Notice.handed?).map Prod.fst ++ after.takers.filter listening =
    before.takers.filter listening ++ (events.filterMap Event.taker?).filter listening
  accepted : notices.filterMap Notice.accepted? ++ (live listening after.blocked).map Item.push =
    (live listening before.blocked).map Item.push ++
      (live listening (events.filterMap Event.item?)).map Item.push
  /-- Nobody waits for word of an item, and nobody gets it. -/
  silent : notices.filterMap Notice.ready? = []

namespace Lossless

variable {listening : RequestId → Bool} {events first second : List (Event α)}
  {before middle after : Actor α} {notices told more : List (Notice α)}

/-- Nothing is lost in two stretches if it is not in each. -/
theorem trans (front : Lossless listening first before middle told)
    (back : Lossless listening second middle after more) :
    Lossless listening (first ++ second) before after (told ++ more) where
  same := front.same.trans back.same
  waiters := back.waiters
  items := by
    simp only [List.filterMap_append, List.map_append, List.append_assoc, live_append]
    rw [back.items, ← List.append_assoc, ← List.append_assoc, List.append_assoc _ middle.buffer,
      front.items]
    simp only [List.append_assoc]
  takers := by
    simp only [List.filterMap_append, List.map_append, List.append_assoc, List.filter_append]
    rw [back.takers, ← List.append_assoc, front.takers, List.append_assoc]
  accepted := by
    simp only [List.filterMap_append, List.map_append, List.append_assoc, live_append]
    rw [back.accepted, ← List.append_assoc, front.accepted, List.append_assoc]
  silent := by rw [List.filterMap_append, front.silent, back.silent, List.append_nil]

theorem before_events (front : Lossless listening [] before middle told)
    (back : Lossless listening events middle after more) :
    Lossless listening events before after (told ++ more) :=
  front.trans back

theorem after_events (front : Lossless listening events before middle told)
    (back : Lossless listening [] middle after more) :
    Lossless listening events before after (told ++ more) := by
  simpa only [List.append_nil] using front.trans back

/-- Where nothing is handed over or acknowledged, nothing is lost if all remains. -/
theorem remaining (same : SameMailbox before after) (waiters : after.waiters = [])
    (buffer : after.buffer = before.buffer)
    (blocked : live listening after.blocked =
      live listening before.blocked ++ live listening (events.filterMap Event.item?))
    (takers : after.takers.filter listening =
      before.takers.filter listening ++ (events.filterMap Event.taker?).filter listening) :
    Lossless listening events before after [] where
  same := same
  waiters := waiters
  items := by
    rw [buffer, blocked, List.append_assoc]
    rfl
  takers := takers
  accepted := by
    rw [blocked, List.map_append]
    rfl
  silent := rfl

/-- Only what those who wait or come say counts. -/
theorem congr {other : RequestId → Bool}
    (lossless : Lossless listening events before after notices)
    (same : ∀ request, request ∈ before.held ∨ request ∈ after.held ∨
      request ∈ events.filterMap Event.request? → listening request = other request) :
    Lossless other events before after notices := by
  have items : live listening (events.filterMap Event.item?) =
      live other (events.filterMap Event.item?) := by
    refine List.filter_congr fun item member => same item.push (.inr (.inr ?_))
    obtain ⟨event, came, brings⟩ := List.mem_filterMap.mp member
    refine List.mem_filterMap.mpr ⟨event, came, ?_⟩
    cases event <;> cases brings
    rfl
  have takes : (events.filterMap Event.taker?).filter listening =
      (events.filterMap Event.taker?).filter other := by
    refine List.filter_congr fun request member => same request (.inr (.inr ?_))
    obtain ⟨event, came, brings⟩ := List.mem_filterMap.mp member
    refine List.mem_filterMap.mpr ⟨event, came, ?_⟩
    cases event <;> cases brings
    rfl
  have earlier := fun request member => same request (.inl member)
  have later := fun request member => same request (.inr (.inl member))
  exact
    { same := lossless.same
      waiters := lossless.waiters
      items := by
        rw [← live_blocked_congr earlier, ← live_blocked_congr later, ← items]
        exact lossless.items
      takers := by
        rw [← filter_takers_congr earlier, ← filter_takers_congr later, ← takes]
        exact lossless.takers
      accepted := by
        rw [← live_blocked_congr earlier, ← live_blocked_congr later, ← items]
        exact lossless.accepted
      silent := lossless.silent }

end Lossless

variable {listening : RequestId → Bool} {before after : Actor α} {notices : List (Notice α)}

/-- No small step loses an item, as long as the mailbox is open and nobody waits for word. -/
theorem SmallStep.lossless (step : SmallStep listening before after notices)
    (isOpen : before.closed = false) (nobody : before.waiters = []) :
    Lossless listening [] before after notices := by
  have same := step.sameMailbox
  cases step with
  | @enter item rest first room hears =>
      refine ⟨same, nobody, ?_, ?_, ?_, rfl⟩
      · simp [Notice.handed?, withBuffer, first, live_cons_of_heard hears]
      · simp [Notice.handed?, withBuffer]
      · simp [Notice.accepted?, first, live_cons_of_heard hears]
  | @passPush item rest first deaf =>
      exact .remaining same nobody rfl (by simp [first, live_cons_of_unheard deaf]) (by simp)
  | wake occupied =>
      rw [nobody]
      exact .remaining same rfl rfl (by simp) (by simp)
  | @deliver oldest rest taker others buffer first hears =>
      refine ⟨same, nobody, ?_, ?_, ?_, rfl⟩
      · simp [Notice.handed?, withBuffer, buffer]
      · simp [Notice.handed?, first, List.filter_cons_of_pos hears]
      · simp [Notice.accepted?, withBuffer]
  | @passTaker taker others first deaf =>
      have passed : (taker :: others).filter listening = others.filter listening :=
        List.filter_cons_of_neg (by simp [deaf])
      exact .remaining same nobody rfl (by simp [withBuffer]) (by simp [first, passed])
  | fail drained closed =>
      rw [isOpen] at closed
      cases closed

/-- Nor do any number of small steps. -/
theorem Course.lossless (course : Course listening before after notices)
    (isOpen : before.closed = false) (nobody : before.waiters = []) :
    Lossless listening [] before after notices := by
  induction course with
  | done actor => exact .remaining (.refl actor) nobody rfl (by simp) (by simp)
  | step first rest ih =>
      have front := first.lossless isOpen nobody
      exact front.before_events (ih (front.same.closed.trans isOpen) front.waiters)

/-- An open actor at rest whose pushes wait for room, and of which nobody waits for word. -/
structure Lasting (actor : Actor α) : Prop where
  rest : actor.AtRest
  policy : actor.policy = .block
  nobody : actor.waiters = []
  isOpen : actor.closed = false
  running : actor.ended = false

/-- A push to a lasting mailbox is let in or waits. -/
theorem onPush_lossless (lasting : before.Lasting) {item : Item α}
    (hears : listening item.push = true) :
    Lossless listening [.push item true] before (before.onPush listening item).1
      (before.onPush listening item).2 := by
  have settling (middle : Actor α) (isOpen : middle.closed = false)
      (nobody : middle.waiters = []) :=
    (settle_course listening middle).lossless isOpen nobody
  by_cases room : before.buffer.length < before.capacity
  · have unblocked := lasting.rest.blocked_of_room room
    have accepted : Lossless listening [.push item true] before
        (before.withBuffer (before.buffer ++ [item])) [.answered item.push .accepted] := by
      refine ⟨⟨rfl, rfl, rfl, rfl⟩, lasting.nobody, ?_, ?_, ?_, rfl⟩
      · simp [Notice.handed?, withBuffer, unblocked, Event.item?, live_cons_of_heard hears]
      · exact (List.append_nil _).symm
      · simp [Notice.accepted?, withBuffer, unblocked, Event.item?, live_cons_of_heard hears]
    have settled := accepted.after_events (settling _ lasting.isOpen lasting.nobody)
    simpa only [onPush, lasting.isOpen, room, accept_of_heard _ hears, if_true,
      Bool.false_eq_true, if_false] using settled
  · have blocked : Lossless listening [.push item true] before
        { before with blocked := before.blocked ++ [item] } [] :=
      .remaining ⟨rfl, rfl, rfl, rfl⟩ lasting.nobody rfl (by simp [Event.item?])
        (List.append_nil _).symm
    have settled := blocked.after_events (settling _ lasting.isOpen lasting.nobody)
    simpa only [onPush, lasting.isOpen, room, overflow, lasting.policy, Bool.false_eq_true,
      if_false] using settled

/-- A take from a lasting mailbox gets an item or waits. -/
theorem onTake_lossless (lasting : before.Lasting) (request : RequestId) (present : Bool) :
    Lossless listening [.take request present] before (before.onTake listening request).1
      (before.onTake listening request).2 := by
  have arrived : Lossless listening [.take request present] before
      { before with takers := before.takers ++ [request] } [] :=
    .remaining ⟨rfl, rfl, rfl, rfl⟩ lasting.nobody rfl (List.append_nil _).symm
      (by simp [Event.taker?])
  exact arrived.after_events ((settle_course listening _).lossless lasting.isOpen lasting.nobody)

/-- A push or a take loses nothing. -/
theorem handle_lossless (lasting : before.Lasting) {event : Event α}
    (call : event.IsCall listening) :
    Lossless listening [event] before (before.handle listening event).1
      (before.handle listening event).2 := by
  cases call with
  | push item =>
      cases hears : listening item.push with
      | true =>
          simpa only [handle, lasting.running, Bool.false_eq_true, if_false, if_true] using
            onPush_lossless lasting hears
      | false =>
          simp only [handle, lasting.running, Bool.false_eq_true, if_false]
          exact .remaining (.refl before) lasting.nobody rfl
            (by simp [Event.item?, live_cons_of_unheard hears]) (List.append_nil _).symm
  | take request =>
      cases hears : listening request with
      | true =>
          simpa only [handle, lasting.running, Bool.false_eq_true, if_false, if_true] using
            onTake_lossless lasting request true
      | false =>
          simp only [handle, lasting.running, Bool.false_eq_true, if_false]
          exact .remaining (.refl before) lasting.nobody rfl (List.append_nil _).symm
            (by simp [Event.taker?, hears])

/-- Calls leave a mailbox lasting. -/
theorem Lasting.handle (lasting : before.Lasting) {event : Event α}
    (call : event.IsCall listening) : (before.handle listening event).1.Lasting := by
  have lossless := handle_lossless lasting call
  exact
    { rest := handle_atRest listening before lasting.rest event
      policy := lossless.same.policy.trans lasting.policy
      nobody := lossless.waiters
      isOpen := lossless.same.closed.trans lasting.isOpen
      running := lossless.same.ended.trans lasting.running }

/-- Pushes and takes lose nothing. -/
theorem run_lossless (lasting : before.Lasting) {events : List (Event α)}
    (calls : ∀ event ∈ events, event.IsCall listening) :
    (before.run (events.map fun event => (listening, event))).1.Lasting ∧
      Lossless listening events before (before.run (events.map fun event => (listening, event))).1
        (before.run (events.map fun event => (listening, event))).2 := by
  induction events generalizing before with
  | nil =>
      exact ⟨lasting, .remaining (.refl before) lasting.nobody rfl (List.append_nil _).symm
        (List.append_nil _).symm⟩
  | cons event rest ih =>
      have call := calls event List.mem_cons_self
      obtain ⟨final, later⟩ := ih (lasting.handle call)
        fun other member => calls other (List.mem_cons_of_mem _ member)
      exact ⟨final, (handle_lossless lasting call).trans later⟩

/-! ## What an open actor comes to -/

/-- Two lists that share a front of pairs, and one of which ends with it, are paired by that front,
and nothing but the rest of the other one is left. -/
theorem zip_of_front {β γ : Type} {pairs : List (β × γ)} {first : List β} {second : List γ}
    (done : first = [] ∨ second = []) :
    (pairs.map Prod.fst ++ first).zip (pairs.map Prod.snd ++ second) = pairs ∧
      (pairs.map Prod.snd ++ second).drop (pairs.map Prod.fst ++ first).length = second ∧
        (pairs.map Prod.fst ++ first).drop (pairs.map Prod.snd ++ second).length = first := by
  have front : (pairs.map Prod.fst).zip (pairs.map Prod.snd) = pairs := by
    rw [List.zip_map']
    exact List.map_id _
  rw [List.zip_append (by simp), front]
  rcases done with rfl | rfl
  · exact ⟨by simp, by simp, by simp⟩
  · exact ⟨by simp, by simp, by simp⟩

/-- At rest, what is buffered is as much as there is room for. -/
theorem AtRest.split {actor : Actor α} (rest : actor.AtRest) (listening : RequestId → Bool) :
    (actor.buffer ++ live listening actor.blocked).take actor.capacity = actor.buffer ∧
      (actor.buffer ++ live listening actor.blocked).drop actor.capacity =
        live listening actor.blocked := by
  by_cases unblocked : actor.blocked = []
  · rw [unblocked, live_nil, List.append_nil]
    exact ⟨List.take_of_length_le rest.within, List.drop_of_length_le rest.within⟩
  · have full := (rest.full unblocked).2.2
    exact ⟨List.take_left' full, List.drop_left' full⟩

/-- Where nothing is lost and the actor is at rest, the takes have got the items in order, as far as
both reach; of the items left as many are buffered as there is room for, and the others wait. -/
theorem Lossless.outcome {events : List (Event α)}
    (lossless : Lossless listening events before after notices) (rest : after.AtRest) :
    let items := before.buffer ++ live listening before.blocked ++
      live listening (events.filterMap Event.item?)
    let takes := before.takers.filter listening ++
      (events.filterMap Event.taker?).filter listening
    notices.filterMap Notice.handed? = takes.zip items ∧
      after.buffer = (items.drop takes.length).take before.capacity ∧
        live listening after.blocked = (items.drop takes.length).drop before.capacity ∧
          after.takers.filter listening = takes.drop items.length := by
  intro items takes
  have itemsKept : _ = items := lossless.items
  have takesKept : _ = takes := lossless.takers
  have done : after.takers.filter listening = [] ∨
      after.buffer ++ live listening after.blocked = [] := by
    by_cases idle : after.takers = []
    · exact .inl (by rw [idle]; rfl)
    · obtain ⟨empty, -, unblocked⟩ := rest.drained (.inl idle)
      exact .inr (by rw [empty, unblocked]; rfl)
  obtain ⟨paired, left, waiting⟩ := zip_of_front done
  rw [itemsKept, takesKept] at paired left waiting
  have room := rest.split listening
  rw [lossless.same.capacity, ← left] at room
  exact ⟨paired.symm, room.1.symm, room.2.symm, waiting.symm⟩

/-- Two actors have the same buffer, and the same requests of those who listen wait before it. -/
structure Agree (listening : RequestId → Bool) (left right : Actor α) : Prop where
  capacity : left.capacity = right.capacity
  buffer : left.buffer = right.buffer
  blocked : live listening left.blocked = live listening right.blocked
  takers : left.takers.filter listening = right.takers.filter listening

/-- The order of pushes against takes does not matter: two open actors that agree agree again after
the same pushes and the same takes, in whatever order these come, and the same clients have got the
same answers. -/
theorem Agree.confluent {left right leftEnd rightEnd : Actor α} {events others : List (Event α)}
    {told more : List (Notice α)} (agree : Agree listening left right)
    (first : Lossless listening events left leftEnd told) (firstRest : leftEnd.AtRest)
    (second : Lossless listening others right rightEnd more) (secondRest : rightEnd.AtRest)
    (items : live listening (events.filterMap Event.item?) =
      live listening (others.filterMap Event.item?))
    (takes : (events.filterMap Event.taker?).filter listening =
      (others.filterMap Event.taker?).filter listening) :
    Agree listening leftEnd rightEnd ∧
      told.filterMap Notice.handed? = more.filterMap Notice.handed? ∧
        told.filterMap Notice.accepted? = more.filterMap Notice.accepted? := by
  obtain ⟨handed, buffer, blocked, takers⟩ := first.outcome firstRest
  obtain ⟨handed', buffer', blocked', takers'⟩ := second.outcome secondRest
  rw [← agree.buffer, ← agree.blocked, ← agree.takers, ← items, ← takes] at handed' takers'
  rw [← agree.buffer, ← agree.blocked, ← agree.takers, ← agree.capacity, ← items, ← takes]
    at buffer' blocked'
  have waiting := blocked.trans blocked'.symm
  have accepted := first.accepted
  rw [agree.blocked, items, ← second.accepted, waiting] at accepted
  exact ⟨⟨first.same.capacity.trans (agree.capacity.trans second.same.capacity.symm),
    buffer.trans buffer'.symm, waiting, takers.trans takers'.symm⟩,
    handed.trans handed'.symm, List.append_cancel_right accepted⟩

/-! ## What a closed actor comes to -/

end Actor

namespace Remains

variable {listening : RequestId → Bool}

/-- A push changes nothing of what is left, and neither does a take to which nobody listens. -/
theorem handle_idle (listening : RequestId → Bool) (remains : Remains α) {event : Event α}
    (idle : (∃ item present, event = .push item present) ∨
      ∃ request, event = .take request false ∧ listening request = false) :
    (remains.handle listening event).1 = remains ∧
      (remains.handle listening event).2.filterMap Notice.handed? = [] ∧
        (remains.handle listening event).2.filterMap Notice.ready? = [] := by
  have refused (request : RequestId) {β : Type} (tell : Notice α → Option β)
      (silent : tell (.answered request .notRunning) = none) :
      (Actor.answer listening request .notRunning).filterMap tell = [] :=
    filterMap_answer _ _ silent
  rcases idle with ⟨item, present, rfl⟩ | ⟨request, rfl, deaf⟩
  · cases remains with
    | discarded => exact ⟨rfl, refused _ _ rfl, refused _ _ rfl⟩
    | closed items =>
        cases present with
        | true => exact ⟨rfl, refused _ _ rfl, refused _ _ rfl⟩
        | false => exact ⟨rfl, rfl, rfl⟩
  · cases remains with
    | discarded => exact ⟨rfl, refused _ _ rfl, refused _ _ rfl⟩
    | closed items => cases items <;> exact ⟨rfl, rfl, rfl⟩

/-- What is left when a number of items has been handed over. -/
def drop (remains : Remains α) (count : Nat) : Remains α :=
  match remains with
  | closed items => closed (items.drop count)
  | discarded => discarded

theorem drop_zero (remains : Remains α) : remains.drop 0 = remains := by
  cases remains <;> rfl

/-- A take to which its client listens gets the oldest item that is left. -/
theorem handle_take (remains : Remains α) {request : RequestId}
    (hears : listening request = true) :
    (remains.handle listening (.take request true)).1 = remains.drop 1 ∧
      (remains.handle listening (.take request true)).2.filterMap Notice.handed? =
        [request].zip remains.items ∧
      (remains.handle listening (.take request true)).2.filterMap Notice.ready? = [] := by
  have refused {β : Type} (tell : Notice α → Option β)
      (silent : tell (.answered request .notRunning) = none) :
      (Actor.answer listening request .notRunning).filterMap tell = [] :=
    filterMap_answer _ _ silent
  cases remains with
  | discarded => exact ⟨rfl, refused _ rfl, refused _ rfl⟩
  | closed items =>
      cases items with
      | nil => exact ⟨rfl, refused _ rfl, refused _ rfl⟩
      | cons oldest rest =>
          simp [Remains.handle, hears, Remains.items, drop, Notice.handed?, Notice.ready?]

/-- The takes of those who listen get the items that are left in order, as far as both reach. -/
theorem run_calls (remains : Remains α) {told : Told α}
    (calls : ∀ entry ∈ told, entry.2.IsCall listening)
    (same : ∀ entry ∈ told, ∀ request, entry.2.request? = some request →
      entry.1 request = listening request) :
    let takes := ((told.map Prod.snd).filterMap Event.taker?).filter listening
    (remains.run told).1 = remains.drop takes.length ∧
      (remains.run told).2.filterMap Notice.handed? = takes.zip remains.items ∧
        (remains.run told).2.filterMap Notice.ready? = [] := by
  induction told generalizing remains with
  | nil => exact ⟨remains.drop_zero.symm, rfl, rfl⟩
  | cons entry rest ih =>
      obtain ⟨now, event⟩ := entry
      intro takes
      obtain ⟨left, handed, silent⟩ := ih (remains.handle now event).1
        (fun other member => calls other (List.mem_cons_of_mem _ member))
        fun other member => same other (List.mem_cons_of_mem _ member)
      rw [run_cons, List.filterMap_append, List.filterMap_append, left, handed, silent]
      have agree := same _ List.mem_cons_self
      cases calls _ List.mem_cons_self with
      | push item =>
          obtain ⟨still, nothing, none⟩ := remains.handle_idle now
            (.inl ⟨item, listening item.push, rfl⟩)
          rw [still, nothing, none]
          exact ⟨rfl, rfl, rfl⟩
      | take request =>
          have hearing := agree request rfl
          cases hears : listening request with
          | false =>
              obtain ⟨still, nothing, none⟩ := remains.handle_idle now
                (.inr ⟨request, rfl, hearing.trans hears⟩)
              have dropped : takes = ((rest.map Prod.snd).filterMap Event.taker?).filter
                  listening := List.filter_cons_of_neg (by simp [hears])
              rw [still, nothing, none, dropped]
              exact ⟨rfl, rfl, rfl⟩
          | true =>
              obtain ⟨fewer, got, none⟩ := remains.handle_take (hearing.trans hears)
              have joined : takes = request ::
                  ((rest.map Prod.snd).filterMap Event.taker?).filter listening :=
                List.filter_cons_of_pos (by simp [hears])
              rw [fewer, got, none, joined]
              cases remains with
              | discarded => simp [drop, Remains.items]
              | closed items => cases items <;> simp [drop, Remains.items]

/-- A run may be cut in two. -/
theorem run_append (remains : Remains α) (front back : Told α) :
    remains.run (front ++ back) =
      (((remains.run front).1.run back).1,
        (remains.run front).2 ++ ((remains.run front).1.run back).2) := by
  induction front generalizing remains with
  | nil => rfl
  | cons entry rest ih =>
      obtain ⟨listening, event⟩ := entry
      have later := ih (remains.handle listening event).1
      rw [List.cons_append, run_cons, run_cons, later, List.append_assoc]

/-- What control requests do does not depend on who listens, and no client gets an item or learns of
one. -/
theorem run_controls (remains : Remains α) {told other : Told α} {controls : List Control}
    (first : told.map Prod.snd = controls.map Control.event)
    (second : other.map Prod.snd = controls.map Control.event) :
    (remains.run told).1 = (remains.run other).1 ∧
      (remains.run told).2.filterMap Notice.handed? = [] ∧
        (remains.run told).2.filterMap Notice.ready? = [] := by
  induction controls generalizing remains told other with
  | nil =>
      rw [List.map_nil, List.map_eq_nil_iff] at first second
      subst first second
      exact ⟨rfl, rfl, rfl⟩
  | cons control rest ih =>
      obtain ⟨⟨now, event⟩, more, rfl, same, behind⟩ := List.map_eq_cons_iff.mp first
      obtain ⟨⟨later, event'⟩, others, rfl, same', behind'⟩ := List.map_eq_cons_iff.mp second
      obtain rfl : event = control.event := same
      obtain rfl : event' = control.event := same'
      have alike : remains.handle now control.event = remains.handle later control.event := by
        cases control <;> cases remains <;> rfl
      have silent : (remains.handle now control.event).2.filterMap Notice.handed? = [] ∧
          (remains.handle now control.event).2.filterMap Notice.ready? = [] := by
        cases control with
        | close => cases remains <;> exact ⟨rfl, rfl⟩
        | discard =>
            cases remains with
            | discarded => exact ⟨rfl, rfl⟩
            | closed items =>
                exact ⟨filterMap_cleared _ (fun _ => rfl) items,
                  filterMap_cleared _ (fun _ => rfl) items⟩
      obtain ⟨final, handed, ready⟩ := ih (remains.handle now control.event).1 behind behind'
      rw [run_cons, run_cons, ← alike, List.filterMap_append, List.filterMap_append, silent.1,
        silent.2, handed, ready]
      exact ⟨final, rfl, rfl⟩

end Remains

end CommandScript.Mailbox
