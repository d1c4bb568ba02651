import CommandScript.Mailbox.Basic
import Mathlib.Data.List.Basic

/-!
# What an actor does with an event

An actor takes an event in, and then it comes to rest by small steps: a blocked push enters the
buffer, a taker gets the oldest item, and each of them is passed over if nobody listens; whoever
waits for an item is told of one, and at the end of a closed mailbox everybody fails.

Three relations list all of this: the small steps (`CommandScript.Mailbox.Actor.SmallStep`), the
ways in which a push is let in (`CommandScript.Mailbox.Actor.Entry`), and the ways in which an event
is handled (`CommandScript.Mailbox.Actor.Reaction`). What every one of them keeps is kept by any
event.
-/

namespace CommandScript.Mailbox

variable {α : Type}

namespace Actor

/-- The requests that the actor cannot answer yet. -/
def held (actor : Actor α) : List RequestId :=
  actor.blocked.map Item.push ++ actor.takers ++ actor.waiters

variable {listening : RequestId → Bool}

/-! ## Items that move -/

/-- A push to which its client listens is accepted. -/
theorem accept_of_heard (actor : Actor α) {item : Item α} (hears : listening item.push = true) :
    actor.accept listening item =
      (actor.withBuffer (actor.buffer ++ [item]), [.answered item.push .accepted], true) := by
  simp only [accept, hears, if_true]

theorem accept_of_unheard (actor : Actor α) {item : Item α} (deaf : listening item.push = false) :
    actor.accept listening item = (actor.withBuffer actor.buffer, [], false) := by
  simp [accept, deaf, withBuffer]

/-- A taker who listens gets the oldest item. -/
theorem deliver_of_heard {actor : Actor α} {oldest : Item α} {rest : List (Item α)}
    (buffer : actor.buffer = oldest :: rest) {taker : RequestId}
    (hears : listening taker = true) :
    actor.deliver listening taker =
      (actor.withBuffer rest, [.answered taker (.delivered oldest)]) := by
  simp only [deliver, buffer, hears, if_true]

theorem deliver_of_unheard {actor : Actor α} {oldest : Item α} {rest : List (Item α)}
    (buffer : actor.buffer = oldest :: rest) {taker : RequestId}
    (deaf : listening taker = false) :
    actor.deliver listening taker = (actor.withBuffer actor.buffer, []) := by
  simp [deliver, buffer, deaf, withBuffer]

/-- The item that makes room for another one, and those that stay. -/
def splitAtEnd (oldest : Bool) (buffer : List (Item α)) : Option (Item α × List (Item α)) :=
  if oldest then splitOldest buffer else splitNewest buffer

/-- An item of a buffer that is not empty can make room. -/
theorem splitAtEnd_of_ne_nil (oldest : Bool) {buffer : List (Item α)} (occupied : buffer ≠ []) :
    ∃ evicted kept, splitAtEnd oldest buffer = some (evicted, kept) ∧
      buffer = if oldest then evicted :: kept else kept ++ [evicted] := by
  cases oldest with
  | true =>
      obtain ⟨first, rest, rfl⟩ := List.exists_cons_of_ne_nil occupied
      exact ⟨first, rest, rfl, rfl⟩
  | false =>
      refine ⟨buffer.getLast occupied, buffer.dropLast, ?_, ?_⟩
      · simp only [splitAtEnd, splitNewest, Bool.false_eq_true, if_false,
          List.getLast?_eq_some_getLast occupied, Option.map_some]
      · exact (List.dropLast_append_getLast occupied).symm

/-- Whichever item makes room, it is one of the buffer, -/
theorem perm_of_split {buffer kept : List (Item α)} {oldest : Bool} {evicted : Item α}
    (whole : buffer = if oldest then evicted :: kept else kept ++ [evicted]) :
    buffer.Perm (evicted :: kept) := by
  rw [whole]
  cases oldest with
  | true => exact .refl _
  | false => exact List.perm_append_singleton evicted kept

/-- and the others keep their order. -/
theorem sublist_of_split {buffer kept : List (Item α)} {oldest : Bool} {evicted : Item α}
    (whole : buffer = if oldest then evicted :: kept else kept ++ [evicted]) :
    kept.Sublist buffer := by
  rw [whole]
  cases oldest with
  | true => exact List.sublist_cons_self evicted kept
  | false => exact List.sublist_append_left kept [evicted]

/-- An item takes the place of the one that makes room, or nothing changes. -/
theorem acceptEvicting_eq (actor : Actor α) (item : Item α) {oldest : Bool} {evicted : Item α}
    {kept : List (Item α)} (split : splitAtEnd oldest actor.buffer = some (evicted, kept))
    (whole : actor.buffer = if oldest then evicted :: kept else kept ++ [evicted]) :
    actor.acceptEvicting listening item oldest =
      if listening item.push then
        ((actor.withBuffer (kept ++ [item])).countDrop,
          [.evicted evicted item.push, .answered item.push .accepted])
      else (actor.withBuffer actor.buffer, []) := by
  unfold splitAtEnd at split
  unfold acceptEvicting
  rw [split]
  cases hears : listening item.push with
  | true => simp only [accept_of_heard _ hears]; rfl
  | false =>
      simp only [accept_of_unheard _ hears]
      rw [whole]
      rfl

/-! ## Small steps -/

/-- A small step on the way to rest, with what it tells. -/
inductive SmallStep (listening : RequestId → Bool) :
    Actor α → Actor α → List (Notice α) → Prop where
  /-- A blocked push enters the buffer. -/
  | enter {actor : Actor α} {item : Item α} {rest : List (Item α)}
    (first : actor.blocked = item :: rest) (room : actor.buffer.length < actor.capacity)
    (hears : listening item.push = true) :
    SmallStep listening actor
      { actor.withBuffer (actor.buffer ++ [item]) with blocked := rest }
      [.answered item.push .accepted]
  /-- A blocked push that nobody listens to is passed over. -/
  | passPush {actor : Actor α} {item : Item α} {rest : List (Item α)}
    (first : actor.blocked = item :: rest) (deaf : listening item.push = false) :
    SmallStep listening actor { actor with blocked := rest } []
  /-- There is an item, and whoever waits for one is told so. -/
  | wake {actor : Actor α} (occupied : actor.buffer ≠ []) :
    SmallStep listening actor { actor with waiters := [] }
      (answerAll listening actor.waiters .ready)
  /-- The first taker gets the oldest item. -/
  | deliver {actor : Actor α} {oldest : Item α} {rest : List (Item α)} {taker : RequestId}
    {others : List RequestId} (buffer : actor.buffer = oldest :: rest)
    (first : actor.takers = taker :: others) (hears : listening taker = true) :
    SmallStep listening actor { actor.withBuffer rest with takers := others }
      [.answered taker (.delivered oldest)]
  /-- A taker that does not listen is passed over. -/
  | passTaker {actor : Actor α} {taker : RequestId} {others : List RequestId}
    (first : actor.takers = taker :: others) (deaf : listening taker = false) :
    SmallStep listening actor { actor.withBuffer actor.buffer with takers := others } []
  /-- At the end of a closed mailbox everybody fails. -/
  | fail {actor : Actor α} (drained : actor.buffer = []) (closed : actor.closed = true) :
    SmallStep listening actor (actor.failWaiting listening).1 (actor.failWaiting listening).2

/-- Small steps in a row. -/
inductive Course (listening : RequestId → Bool) :
    Actor α → Actor α → List (Notice α) → Prop where
  | done (actor : Actor α) : Course listening actor actor []
  | step {before middle after : Actor α} {told more : List (Notice α)}
    (first : SmallStep listening before middle told) (rest : Course listening middle after more) :
    Course listening before after (told ++ more)

variable {before middle after : Actor α} {told more : List (Notice α)}

theorem SmallStep.course (step : SmallStep listening before after told) :
    Course listening before after told := by
  simpa only [List.append_nil] using Course.step step (.done after)

theorem Course.trans (first : Course listening before middle told)
    (second : Course listening middle after more) :
    Course listening before after (told ++ more) := by
  induction first with
  | done actor => exact second
  | step first rest ih =>
      rw [List.append_assoc]
      exact .step first (ih second)

/-! ## Settling is a course -/

variable (listening)

/-- Blocked pushes enter the buffer or are passed over, whoever waits for an item. -/
theorem fill_course (actor : Actor α) (items : List (Item α)) (takers : List RequestId) :
    Course listening { actor with blocked := items, takers := takers }
      { (actor.fill listening items).1 with takers := takers }
      (actor.fill listening items).2 := by
  induction items generalizing actor with
  | nil => exact .done _
  | cons item rest ih =>
      unfold fill
      by_cases room : actor.buffer.length < actor.capacity
      · cases hears : listening item.push with
        | true =>
            have entered : SmallStep listening
                { actor with blocked := item :: rest, takers := takers }
                { (actor.accept listening item).1 with blocked := rest, takers := takers }
                (actor.accept listening item).2.1 := by
              rw [accept_of_heard actor hears]
              exact .enter rfl room hears
            simp only [room, if_true]
            exact .step entered (ih _)
        | false =>
            simp only [room, if_true, Bool.false_eq_true, if_false]
            exact .step (.passPush rfl hears) (ih actor)
      · simp only [room, if_false]
        exact .done _

/-- Those who wait for an item are told that there is one. -/
theorem wake_course (actor : Actor α) (takers : List RequestId) (occupied : actor.buffer ≠ []) :
    Course listening { actor with takers := takers }
      { (actor.wake listening).1 with takers := takers } (actor.wake listening).2 := by
  have step : SmallStep listening { actor with takers := takers }
      { actor with takers := takers, waiters := [] } (answerAll listening actor.waiters .ready) :=
    .wake occupied
  exact step.course

/-- The first taker gets the oldest item or is passed over. -/
theorem deliver_course (actor : Actor α) (taker : RequestId) (rest : List RequestId)
    (occupied : actor.buffer ≠ []) :
    Course listening { actor with takers := taker :: rest }
      { (actor.deliver listening taker).1 with takers := rest }
      (actor.deliver listening taker).2 := by
  obtain ⟨oldest, behind, buffer⟩ := List.exists_cons_of_ne_nil occupied
  cases hears : listening taker with
  | true =>
      rw [deliver_of_heard buffer hears]
      have step : SmallStep listening { actor with takers := taker :: rest }
          { actor.withBuffer behind with takers := rest }
          [.answered taker (.delivered oldest)] := .deliver buffer rfl hears
      exact step.course
  | false =>
      rw [deliver_of_unheard buffer hears]
      have step : SmallStep listening { actor with takers := taker :: rest }
          { actor.withBuffer actor.buffer with takers := rest } [] := .passTaker rfl hears
      exact step.course

/-- Blocked pushes move into free places and takers are served. -/
theorem serveTakers_course (actor : Actor α) (takers : List RequestId) :
    Course listening { actor with takers := takers }
      (actor.serveTakers listening takers).1 (actor.serveTakers listening takers).2 := by
  induction takers generalizing actor with
  | nil =>
      unfold serveTakers
      have filled := fill_course listening actor actor.blocked []
      by_cases idle : (actor.fill listening actor.blocked).1.buffer.isEmpty = true
      · simp only [idle, if_true]
        exact filled
      · simp only [idle]
        rw [List.isEmpty_iff] at idle
        exact filled.trans (wake_course listening _ [] idle)
  | cons taker rest ih =>
      unfold serveTakers
      have filled := fill_course listening actor actor.blocked (taker :: rest)
      by_cases idle : (actor.fill listening actor.blocked).1.buffer.isEmpty = true
      · simp only [idle, if_true]
        exact filled
      · simp only [idle]
        rw [List.isEmpty_iff] at idle
        have woken := filled.trans (wake_course listening _ (taker :: rest) idle)
        exact (woken.trans (deliver_course listening _ taker rest idle)).trans (ih _)

/-- An actor comes to rest by small steps. -/
theorem settle_course (actor : Actor α) :
    Course listening actor (actor.settle listening).1 (actor.settle listening).2 := by
  have served : Course listening actor _ _ := serveTakers_course listening actor actor.takers
  unfold settle
  by_cases drained : ((actor.serveTakers listening actor.takers).1.buffer.isEmpty &&
      (actor.serveTakers listening actor.takers).1.closed) = true
  · simp only [drained, if_true]
    rw [Bool.and_eq_true, List.isEmpty_iff] at drained
    exact served.trans (SmallStep.fail drained.1 drained.2).course
  · simp only [drained]
    exact served

variable {listening}

/-! ## Events -/

/-- How a push is let in: the actor before it comes to rest, and what has been told by then. -/
inductive Entry (listening : RequestId → Bool) (actor : Actor α) (item : Item α) :
    Actor α → List (Notice α) → Prop where
  /-- The item is buffered behind the others. -/
  | stays (room : actor.buffer.length < actor.capacity) (hears : listening item.push = true) :
    Entry listening actor item (actor.withBuffer (actor.buffer ++ [item]))
      [.answered item.push .accepted]
  /-- The oldest or the newest item makes room for it. -/
  | replaces {oldest : Bool} {evicted : Item α} {kept : List (Item α)}
    (dropping : actor.policy ≠ .block)
    (whole : actor.buffer = if oldest then evicted :: kept else kept ++ [evicted])
    (hears : listening item.push = true) :
    Entry listening actor item (actor.withBuffer (kept ++ [item])).countDrop
      [.evicted evicted item.push, .answered item.push .accepted]
  /-- Nobody listens any more, and everything is as it was. -/
  | undone (deaf : listening item.push = false) :
    Entry listening actor item (actor.withBuffer actor.buffer) []
  /-- The push waits for room. -/
  | waits (blocking : actor.policy = .block) (isOpen : actor.closed = false) :
    Entry listening actor item { actor with blocked := actor.blocked ++ [item] } []
  /-- The item is lost. -/
  | lost (dropping : actor.policy ≠ .block) :
    Entry listening actor item actor.countDrop
      (.evicted item item.push :: answer listening item.push .accepted)

/-- A push for which there is room is let in. -/
theorem accept_entry (actor : Actor α) (item : Item α)
    (room : actor.buffer.length < actor.capacity) :
    Entry listening actor item (actor.accept listening item).1
      (actor.accept listening item).2.1 := by
  cases hears : listening item.push with
  | true =>
      rw [accept_of_heard actor hears]
      exact .stays room hears
  | false =>
      rw [accept_of_unheard actor hears]
      exact .undone hears

/-- A push is let in at the cost of another item. -/
theorem acceptEvicting_entry (actor : Actor α) (item : Item α) (oldest : Bool)
    (occupied : actor.buffer ≠ []) (dropping : actor.policy ≠ .block) :
    Entry listening actor item (actor.acceptEvicting listening item oldest).1
      (actor.acceptEvicting listening item oldest).2 := by
  obtain ⟨evicted, kept, split, whole⟩ := splitAtEnd_of_ne_nil oldest occupied
  rw [acceptEvicting_eq actor item split whole]
  cases hears : listening item.push with
  | true => exact .replaces dropping whole hears
  | false => exact .undone hears

/-- A push on a full buffer is let in as its policy says. -/
theorem overflow_entry (actor : Actor α) (item : Item α) (isOpen : actor.closed = false)
    (full : ¬ actor.buffer.length < actor.capacity) :
    Entry listening actor item (actor.overflow listening item).1
      (actor.overflow listening item).2 := by
  have occupied := actor.occupied_of_full full
  unfold overflow
  split
  · rename_i blocking
    exact .waits blocking isOpen
  · rename_i policy
    exact acceptEvicting_entry actor item true occupied (by rw [policy]; decide)
  · rename_i policy
    exact .lost (by rw [policy]; decide)
  · rename_i policy
    exact acceptEvicting_entry actor item false occupied (by rw [policy]; decide)

/-- How an actor handles an event. -/
inductive Reaction (listening : RequestId → Bool) (actor : Actor α) :
    Event α → Actor α → List (Notice α) → Prop where
  /-- An actor that has ended refuses everything. -/
  | refuses (event : Event α) (stopped : actor.ended = true) :
    Reaction listening actor event actor (afterEnd listening event)
  /-- A push or a take whose client is no longer present is passed over. -/
  | missesPush (item : Item α) : Reaction listening actor (.push item false) actor []
  | missesTake (request : RequestId) : Reaction listening actor (.take request false) actor []
  /-- Behind the end of the input no push is let in. -/
  | shutsOut (item : Item α) :
    Reaction listening actor (.push item true) actor (answer listening item.push .notRunning)
  | letsIn {item : Item α} {middle : Actor α} {told : List (Notice α)}
    (running : actor.ended = false) (entry : Entry listening actor item middle told) :
    Reaction listening actor (.push item true) (middle.settle listening).1
      (told ++ (middle.settle listening).2)
  | takes (request : RequestId) (running : actor.ended = false) :
    Reaction listening actor (.take request true) (actor.onTake listening request).1
      (actor.onTake listening request).2
  /-- A request to be told of an item is answered at once, -/
  | tells (request : RequestId) {reply : Answer α} (word : reply = .ready ∨ reply = .notRunning) :
    Reaction listening actor (.wait request) actor (answer listening request reply)
  /-- or it waits for one. -/
  | waits (request : RequestId) (running : actor.ended = false) (empty : actor.buffer = [])
    (isOpen : actor.closed = false) :
    Reaction listening actor (.wait request)
      { actor with waiters := actor.waiters ++ [request] } []
  | staysClosed : Reaction listening actor .close actor []
  | closes (running : actor.ended = false) :
    Reaction listening actor .close
      (Actor.settle listening { actor with closed := true, blocked := [] }).1
      (answerAll listening (actor.blocked.map Item.push) .notRunning ++
        (Actor.settle listening { actor with closed := true, blocked := [] }).2)
  | discards :
    Reaction listening actor .discard (actor.discard listening).1 (actor.discard listening).2

/-- How an actor that runs reacts to a push. -/
theorem onPush_reaction (actor : Actor α) (running : actor.ended = false) (item : Item α) :
    Reaction listening actor (.push item true) (actor.onPush listening item).1
      (actor.onPush listening item).2 := by
  unfold onPush
  split
  · exact .shutsOut item
  · rename_i isOpen
    rw [Bool.not_eq_true] at isOpen
    by_cases room : actor.buffer.length < actor.capacity
    · simp only [room, if_true]
      exact .letsIn running (accept_entry actor item room)
    · simp only [room, if_false]
      exact .letsIn running (overflow_entry actor item isOpen room)

/-- How an actor that runs reacts to a wait. -/
theorem onWait_reaction (actor : Actor α) (running : actor.ended = false) (request : RequestId) :
    Reaction listening actor (.wait request) (actor.onWait listening request).1
      (actor.onWait listening request).2 := by
  unfold onWait
  split
  · exact .tells request (.inl rfl)
  · rename_i empty
    split
    · exact .tells request (.inr rfl)
    · rename_i isOpen
      rw [Bool.not_eq_true', Bool.not_eq_false, List.isEmpty_iff] at empty
      exact .waits request running empty (Bool.eq_false_iff.mpr isOpen)

/-- How an actor that runs reacts when it is closed. -/
theorem close_reaction (actor : Actor α) (running : actor.ended = false) :
    Reaction listening actor .close (actor.close listening).1 (actor.close listening).2 := by
  unfold close
  split
  · exact .staysClosed
  · exact .closes running

/-- All that an actor does with an event is listed as a reaction. -/
theorem handle_reaction (listening : RequestId → Bool) (actor : Actor α) (event : Event α) :
    Reaction listening actor event (actor.handle listening event).1
      (actor.handle listening event).2 := by
  unfold handle
  cases running : actor.ended with
  | true => exact .refuses event running
  | false =>
      cases event with
      | push item present =>
          cases present with
          | true => exact onPush_reaction actor running item
          | false => exact .missesPush item
      | take request present =>
          cases present with
          | true => exact .takes request running
          | false => exact .missesTake request
      | wait request => exact onWait_reaction actor running request
      | close => exact close_reaction actor running
      | discard => exact .discards

end Actor

end CommandScript.Mailbox
