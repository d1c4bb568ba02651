import CommandScript.Proofs.Mailbox.Erasure

/-!
# What is left of a closed mailbox

Once its input is closed an actor keeps no request waiting, and nothing about it matters any more
but the items that are still buffered: a push is refused, a take gets the oldest item or is refused,
and a wait is answered at once. Once it is discarded the actor refuses everything. The actor is then
a refinement of what it leaves, `CommandScript.Mailbox.Remains`, event by event
(`CommandScript.Mailbox.Actor.trace_of_shut`).
-/

namespace CommandScript.Mailbox

variable {α : Type}

/-- What is left of a mailbox whose input is closed. -/
inductive Remains (α : Type) where
  /-- The buffered items that no take has got yet. -/
  | closed (items : List (Item α))
  | discarded
deriving DecidableEq, Repr

namespace Remains

/-- The items that are left. -/
def items : Remains α → List (Item α)
  | closed items => items
  | discarded => []

/-- One event. A push or a take whose client is no longer present is passed over until the mailbox
is discarded. -/
def handle (listening : RequestId → Bool) : Remains α → Event α → Remains α × List (Notice α)
  | .discarded, event => (.discarded, Actor.afterEnd listening event)
  | .closed items, .push item present =>
    (.closed items, if present then Actor.answer listening item.push .notRunning else [])
  | .closed [], .take request present =>
    (.closed [], if present then Actor.answer listening request .notRunning else [])
  | .closed (oldest :: rest), .take request present =>
    if present && listening request then
      (.closed rest, [.answered request (.delivered oldest)])
    else (.closed (oldest :: rest), [])
  | .closed items, .wait request =>
    (.closed items,
      Actor.answer listening request (if items.isEmpty then .notRunning else .ready))
  | .closed items, .close => (.closed items, [])
  | .closed items, .discard => (.discarded, items.map .cleared)

/-- Events one after the other. -/
def run (remains : Remains α) : Told α → Remains α × List (Notice α)
  | [] => (remains, [])
  | (listening, event) :: rest =>
    let (after, notices) := remains.handle listening event
    let (final, more) := after.run rest
    (final, notices ++ more)

/-- What is seen after each of several events, when nothing more is lost to overflow. -/
def trace (overflowed : Nat) (remains : Remains α) : Told α → List (Sight α)
  | [] => []
  | (listening, event) :: rest =>
    let (after, notices) := remains.handle listening event
    ⟨notices, after.items, after.items.length, overflowed⟩ :: after.trace overflowed rest

/-! ## What the remains give away -/

/-- What an event can do with the remains of a mailbox. -/
inductive Yields (listening : RequestId → Bool) (remains : Remains α) :
    Remains α × List (Notice α) → Prop where
  /-- A request is refused, or is told that there is an item. -/
  | answers (request : RequestId) {reply : Answer α}
    (word : reply = .notRunning ∨ reply = .ready ∧ remains.items ≠ []) :
    Yields listening remains (remains, Actor.answer listening request reply)
  | passes : Yields listening remains (remains, [])
  /-- A take gets the oldest item. -/
  | hands (request : RequestId) {oldest : Item α} {rest : List (Item α)}
    (left : remains.items = oldest :: rest) :
    Yields listening remains (.closed rest, [.answered request (.delivered oldest)])
  | clears : Yields listening remains (.discarded, remains.items.map .cleared)

/-- No event does anything else with the remains. -/
theorem handle_yields (listening : RequestId → Bool) (remains : Remains α) (event : Event α) :
    Yields listening remains (remains.handle listening event) := by
  cases remains with
  | discarded => cases event <;> first | exact .answers _ (.inl rfl) | exact .passes
  | closed items =>
      cases event with
      | push item present =>
          cases present with
          | true => exact .answers item.push (.inl rfl)
          | false => exact .passes
      | take request present =>
          cases items with
          | nil =>
              cases present with
              | true => exact .answers request (.inl rfl)
              | false => exact .passes
          | cons oldest rest =>
              unfold handle
              dsimp only
              split
              · exact .hands request rfl
              · exact .passes
      | wait request =>
          cases items with
          | nil => exact .answers request (.inl rfl)
          | cons oldest rest => exact .answers request (.inr ⟨rfl, List.cons_ne_nil _ _⟩)
      | close => exact .passes
      | discard => exact .clears

/-- An answer tells only what its notice tells. -/
theorem filterMap_answer {β : Type} (tell : Notice α → Option β) (listening : RequestId → Bool)
    {request : RequestId} {reply : Answer α} (silent : tell (.answered request reply) = none) :
    (Actor.answer listening request reply).filterMap tell = [] := by
  unfold Actor.answer
  split
  · simp [silent]
  · rfl

/-- The items that are cleared tell only that. -/
theorem filterMap_cleared {β : Type} (tell : Notice α → Option β)
    (silent : ∀ item, tell (.cleared item) = none) (items : List (Item α)) :
    (items.map Notice.cleared).filterMap tell = [] := by
  rw [List.filterMap_map]
  exact List.filterMap_eq_nil_iff.mpr fun item _ => silent item

variable {listening : RequestId → Bool} {remains : Remains α}
  {yield : Remains α × List (Notice α)}

/-- No push is accepted. -/
theorem Yields.accepted (yields : Yields listening remains yield) :
    yield.2.filterMap Notice.accepted? = [] := by
  cases yields with
  | answers request word =>
      rcases word with rfl | ⟨rfl, -⟩ <;> exact filterMap_answer _ _ rfl
  | passes => rfl
  | hands request left => rfl
  | clears => exact filterMap_cleared _ (fun _ => rfl) _

/-- Items are handed over from the oldest one on, or all that are left are cleared. -/
theorem Yields.items (yields : Yields listening remains yield) :
    (yield.2.filterMap Notice.handed?).map Prod.snd ++ yield.2.filterMap Notice.cleared? ++
        yield.1.items = remains.items ∧
      (yield.2.filterMap Notice.cleared? = [] ∨ yield.1.items = []) := by
  cases yields with
  | answers request word =>
      rcases word with rfl | ⟨rfl, -⟩ <;>
        exact ⟨by rw [filterMap_answer _ _ rfl, filterMap_answer _ _ rfl]; rfl,
          .inl (filterMap_answer _ _ rfl)⟩
  | passes => exact ⟨rfl, .inl rfl⟩
  | hands request left => exact ⟨left.symm, .inl rfl⟩
  | clears =>
      refine ⟨?_, .inr rfl⟩
      rw [filterMap_cleared _ (fun _ => rfl), List.filterMap_map]
      exact (List.append_nil _).trans List.filterMap_some

/-- Where nothing is left, no client gets an item or learns of one. -/
theorem Yields.served (yields : Yields listening remains yield) (nothing : remains.items = []) :
    yield.2.filterMap Notice.served? = [] ∧ yield.1.items = [] := by
  cases yields with
  | answers request word =>
      obtain rfl := word.resolve_right fun other => other.2 nothing
      exact ⟨filterMap_answer _ _ rfl, nothing⟩
  | passes => exact ⟨rfl, nothing⟩
  | hands request left =>
      rw [nothing] at left
      cases left
  | clears => exact ⟨filterMap_cleared _ (fun _ => rfl) _, rfl⟩

/-- The remains deal with the events one after the other. -/
theorem run_cons (listening : RequestId → Bool) (remains : Remains α) (event : Event α)
    (rest : Told α) :
    remains.run ((listening, event) :: rest) =
      (((remains.handle listening event).1.run rest).1,
        (remains.handle listening event).2 ++ ((remains.handle listening event).1.run rest).2) :=
  rfl

/-- No push is accepted any more. -/
theorem run_accepted (remains : Remains α) (events : Told α) :
    (remains.run events).2.filterMap Notice.accepted? = [] := by
  induction events generalizing remains with
  | nil => rfl
  | cons entry rest ih =>
      obtain ⟨listening, event⟩ := entry
      rw [run_cons, List.filterMap_append, (handle_yields listening remains event).accepted, ih,
        List.nil_append]

/-- The items that are left are handed over or cleared, each once and in order. -/
theorem run_items (remains : Remains α) (events : Told α) :
    ((remains.run events).2.filterMap Notice.handed?).map Prod.snd ++
        (remains.run events).2.filterMap Notice.cleared? ++ (remains.run events).1.items =
      remains.items := by
  induction events generalizing remains with
  | nil => rfl
  | cons entry rest ih =>
      obtain ⟨listening, event⟩ := entry
      obtain ⟨first, last⟩ := (handle_yields listening remains event).items
      have later := ih (remains.handle listening event).1
      rw [run_cons, ← first, List.filterMap_append, List.filterMap_append, List.map_append]
      rcases last with kept | nothing
      · rw [kept, ← later]
        simp only [List.nil_append, List.append_nil, List.append_assoc]
      · rw [nothing, List.append_eq_nil_iff, List.append_eq_nil_iff] at later
        obtain ⟨⟨handed, cleared⟩, left⟩ := later
        rw [handed, cleared, left, nothing]
        simp only [List.append_nil]

/-- Where no item is left, nobody gets one. -/
theorem run_served {remains : Remains α} (nothing : remains.items = []) (events : Told α) :
    (remains.run events).2.filterMap Notice.served? = [] := by
  induction events generalizing remains with
  | nil => rfl
  | cons entry rest ih =>
      obtain ⟨listening, event⟩ := entry
      obtain ⟨unserved, still⟩ := (handle_yields listening remains event).served nothing
      rw [run_cons, List.filterMap_append, unserved, ih still, List.nil_append]

end Remains

/-! ## Actors whose input is closed -/

namespace Actor

/-- No push will be accepted any more. -/
def Shut (actor : Actor α) : Prop :=
  actor.closed = true ∨ actor.ended = true

/-- What is left of an actor whose input is closed. -/
def remains (actor : Actor α) : Remains α :=
  if actor.ended then .discarded else .closed actor.buffer

variable {listening : RequestId → Bool} {actor : Actor α}

/-- A mailbox that is only closed goes on answering. -/
theorem running_of_remains {items : List (Item α)} (left : actor.remains = .closed items) :
    actor.ended = false := by
  unfold remains at left
  split at left
  · cases left
  · exact Bool.eq_false_iff.mpr ‹_›

/-- Once the input is closed, nobody waits. -/
theorem AtRest.held_of_shut (rest : actor.AtRest) (shut : actor.Shut) : actor.held = [] := by
  rcases shut with closed | ended
  · have blocked : actor.blocked = [] := by
      by_contra waiting
      rw [(rest.full waiting).2.1] at closed
      cases closed
    have readers : ¬ (actor.takers ≠ [] ∨ actor.waiters ≠ []) := by
      intro waiting
      rw [(rest.drained waiting).2.1] at closed
      cases closed
    simp only [not_or, not_not] at readers
    simp [held, blocked, readers]
  · exact (rest.stopped ended).2

/-- The remains of an actor at rest are its buffered items. -/
theorem AtRest.items_remains (rest : actor.AtRest) : actor.remains.items = actor.buffer := by
  unfold remains
  split
  · rename_i ended
    exact (rest.stopped ended).1.symm
  · rfl

/-- An actor whose input is closed does with an event what is done with what is left of it. -/
theorem handle_of_shut (listening : RequestId → Bool) (rest : actor.AtRest) (shut : actor.Shut)
    (event : Event α) :
    (actor.handle listening event).1.Shut ∧
      (actor.handle listening event).1.discarded = actor.discarded ∧
        actor.remains.handle listening event =
          ((actor.handle listening event).1.remains, (actor.handle listening event).2) := by
  cases ended : actor.ended with
  | true =>
      rw [handle_of_ended listening event ended]
      refine ⟨shut, rfl, ?_⟩
      simp [remains, ended, Remains.handle]
  | false =>
      have closed : actor.closed = true := shut.resolve_right (by simp [ended])
      have none := rest.held_of_shut shut
      simp only [held, List.append_eq_nil_iff, List.map_eq_nil_iff] at none
      obtain ⟨⟨blocked, takers⟩, waiters⟩ := none
      cases event with
      | push item present =>
          cases present <;> simp [handle, ended, onPush, closed, Shut, remains, Remains.handle]
      | take request present =>
          cases present with
          | false =>
              cases buffer : actor.buffer <;>
                simp [handle, ended, closed, Shut, remains, Remains.handle, buffer]
          | true =>
              cases buffer : actor.buffer with
              | nil =>
                  simp [handle, ended, closed, Shut, remains, Remains.handle, buffer, onTake,
                    settle, serveTakers, fill, blocked, takers, waiters, failWaiting, answerAll]
              | cons oldest others =>
                  cases hears : listening request <;> cases others <;>
                    simp [handle, ended, closed, Shut, remains, Remains.handle, buffer, onTake,
                      settle, serveTakers, fill, wake, deliver, blocked, takers, waiters,
                      failWaiting, answerAll, withBuffer, hears]
      | wait request =>
          cases buffer : actor.buffer <;>
            simp [handle, ended, closed, Shut, remains, Remains.handle, buffer, onWait]
      | close => simp [handle, ended, close, closed, Shut, remains, Remains.handle]
      | discard =>
          simp [handle, ended, discard, blocked, takers, waiters, failWaiting, withBuffer,
            answerAll, Shut, remains, Remains.handle]

/-- What is seen of an actor whose input is closed is what is seen of its remains. -/
theorem trace_of_shut (rest : actor.AtRest) (shut : actor.Shut) (events : Told α) :
    actor.trace events = actor.remains.trace actor.discarded events := by
  induction events generalizing actor with
  | nil => rfl
  | cons entry others ih =>
      obtain ⟨listening, event⟩ := entry
      obtain ⟨still, discarded, same⟩ := handle_of_shut listening rest shut event
      have after := handle_atRest listening actor rest event
      have seen := ih after still
      rw [discarded] at seen
      simp only [trace, Remains.trace, same, seen, sight, discarded, after.published,
        after.items_remains]

/-- A run of an actor whose input is closed is a run of its remains. -/
theorem run_of_shut (rest : actor.AtRest) (shut : actor.Shut) (events : Told α) :
    (actor.run events).1.Shut ∧
      actor.remains.run events = ((actor.run events).1.remains, (actor.run events).2) := by
  induction events generalizing actor with
  | nil => exact ⟨shut, rfl⟩
  | cons entry others ih =>
      obtain ⟨listening, event⟩ := entry
      obtain ⟨still, -, same⟩ := handle_of_shut listening rest shut event
      obtain ⟨final, later⟩ := ih (handle_atRest listening actor rest event) still
      refine ⟨final, ?_⟩
      rw [Remains.run_cons, same]
      dsimp only
      rw [later]
      rfl

/-! ## The end of the input -/

/-- Closing the input refuses everybody who waits, and leaves the buffered items. -/
theorem handle_close (listening : RequestId → Bool) (rest : actor.AtRest) :
    (actor.handle listening .close).1.Shut ∧
      (actor.handle listening .close).1.discarded = actor.discarded ∧
        (actor.handle listening .close).1.remains = actor.remains ∧
          (actor.handle listening .close).2 = answerAll listening actor.held .notRunning := by
  by_cases shut : actor.Shut
  · obtain ⟨still, discarded, same⟩ := handle_of_shut listening rest shut .close
    have idle : actor.remains.handle listening .close = (actor.remains, []) := by
      cases actor.remains <;> rfl
    rw [idle, Prod.mk.injEq] at same
    rw [rest.held_of_shut shut]
    exact ⟨still, discarded, same.1.symm, same.2.symm⟩
  · obtain ⟨isOpen, running⟩ : actor.closed = false ∧ actor.ended = false := by
      simpa [Shut] using shut
    cases buffer : actor.buffer with
    | nil =>
        have unblocked := rest.blocked_of_room (actor.room_of_empty buffer)
        cases takers : actor.takers <;>
          simp [handle, running, close, isOpen, settle, serveTakers, fill, buffer, unblocked,
            takers, failWaiting, answerAll, Shut, remains, held]
    | cons oldest others =>
        have nobody : ¬ (actor.takers ≠ [] ∨ actor.waiters ≠ []) := by
          intro waiting
          rw [(rest.drained waiting).1] at buffer
          cases buffer
        simp only [not_or, not_not] at nobody
        simp [handle, running, close, isOpen, settle, serveTakers, fill, wake, buffer, nobody,
          answerAll, Shut, remains, held]

/-- Discarding the mailbox clears the buffer, refuses everybody who waits, and leaves nothing. -/
theorem handle_discard (listening : RequestId → Bool) (rest : actor.AtRest) :
    (actor.handle listening .discard).1.Shut ∧
      (actor.handle listening .discard).1.discarded = actor.discarded ∧
        (actor.handle listening .discard).1.remains = .discarded ∧
          (actor.handle listening .discard).2 =
            actor.buffer.map .cleared ++ answerAll listening actor.held .notRunning := by
  cases ended : actor.ended with
  | true =>
      obtain ⟨buffer, held⟩ := rest.stopped ended
      rw [handle_of_ended listening _ ended, buffer, held]
      exact ⟨.inr ended, rfl, by simp [remains, ended], rfl⟩
  | false =>
      simp [handle, ended, discard, failWaiting, withBuffer, Shut, remains, held, answerAll]

/-- What is seen of an actor that is asked to close its input: everybody who waits is refused, and
later its remains are seen. -/
theorem trace_close (listening : RequestId → Bool) (rest : actor.AtRest) (events : Told α) :
    actor.trace ((listening, .close) :: events) =
      ⟨answerAll listening actor.held .notRunning, actor.buffer, actor.buffer.length,
        actor.discarded⟩ :: actor.remains.trace actor.discarded events := by
  obtain ⟨shut, discarded, same, told⟩ := handle_close listening rest
  have after := handle_atRest listening actor rest .close
  have buffer : (actor.handle listening .close).1.buffer = actor.buffer := by
    rw [← after.items_remains, same, rest.items_remains]
  have later := trace_of_shut after shut events
  rw [same, discarded] at later
  simp only [trace, sight, later, told, discarded, after.published, buffer]

/-- What is seen of an actor that is asked to give up its mailbox: the buffer is cleared, everybody
who waits is refused, and later nothing is left. -/
theorem trace_discard (listening : RequestId → Bool) (rest : actor.AtRest) (events : Told α) :
    actor.trace ((listening, .discard) :: events) =
      ⟨actor.buffer.map .cleared ++ answerAll listening actor.held .notRunning, [], 0,
        actor.discarded⟩ :: Remains.discarded.trace actor.discarded events := by
  obtain ⟨shut, discarded, same, told⟩ := handle_discard listening rest
  have after := handle_atRest listening actor rest .discard
  have buffer : (actor.handle listening .discard).1.buffer = [] := by
    rw [← after.items_remains, same]
    rfl
  have later := trace_of_shut after shut events
  rw [same, discarded] at later
  simp only [trace, sight, later, told, discarded, after.published, buffer, List.length_nil]

/-- A control request does to an actor what it does to its remains, and refuses everybody who
waits. -/
theorem handle_control (listening : RequestId → Bool) (rest : actor.AtRest) (control : Control) :
    (actor.handle listening control.event).1.Shut ∧
      (actor.handle listening control.event).1.remains =
          (actor.remains.handle listening control.event).1 ∧
        (actor.handle listening control.event).2 =
          (actor.remains.handle listening control.event).2 ++
            answerAll listening actor.held .notRunning := by
  cases control with
  | close =>
      obtain ⟨shut, -, same, told⟩ := handle_close listening rest
      have idle : actor.remains.handle listening .close = (actor.remains, []) := by
        cases actor.remains <;> rfl
      rw [Control.event, idle]
      exact ⟨shut, same, told⟩
  | discard =>
      obtain ⟨shut, -, same, told⟩ := handle_discard listening rest
      have cleared : actor.remains.handle listening .discard =
          (.discarded, actor.buffer.map .cleared) := by
        rw [← rest.items_remains]
        cases actor.remains <;> rfl
      rw [Control.event, cleared]
      exact ⟨shut, same, told⟩

/-- The actor deals with the events one after the other. -/
theorem run_cons (listening : RequestId → Bool) (actor : Actor α) (event : Event α)
    (rest : Told α) :
    actor.run ((listening, event) :: rest) =
      (((actor.handle listening event).1.run rest).1,
        (actor.handle listening event).2 ++ ((actor.handle listening event).1.run rest).2) :=
  rfl

/-- A run that begins with a control request, or with a closed input, comes to what it comes to for
the remains, but for refusals. -/
theorem run_of_ending (rest : actor.AtRest) {events : Told α}
    (ending : actor.Shut ∨ ∃ listening control others,
      events = (listening, Control.event control) :: others) :
    (actor.run events).1.Shut ∧
      (actor.run events).1.remains = (actor.remains.run events).1 ∧
        ∀ {β : Type} (tell : Notice α → Option β),
          (∀ request, tell (.answered request .notRunning) = none) →
            (actor.run events).2.filterMap tell = (actor.remains.run events).2.filterMap tell := by
  rcases ending with shut | ⟨listening, control, others, rfl⟩
  · obtain ⟨still, same⟩ := run_of_shut rest shut events
    rw [same]
    exact ⟨still, rfl, fun _ _ => rfl⟩
  · obtain ⟨shut, same, told⟩ := handle_control listening rest control
    obtain ⟨still, later⟩ := run_of_shut (handle_atRest listening actor rest control.event) shut
      others
    rw [same] at later
    rw [Remains.run_cons, later, run_cons]
    refine ⟨still, rfl, fun tell silent => ?_⟩
    rw [told, List.filterMap_append, List.filterMap_append, List.filterMap_append,
      filterMap_answerAll_eq_nil tell _ _ _ silent, List.append_nil]

end Actor

namespace Remains

/-- What is discarded stays so. -/
theorem run_discarded (events : Told α) : ((discarded : Remains α).run events).1 = discarded := by
  induction events with
  | nil => rfl
  | cons entry rest ih => exact ih

/-- Where control requests come first and discard is one of them, no client gets an item or learns
of one, and nothing is left. -/
theorem run_discard (listening : RequestId → Bool) (remains : Remains α) {controls : List Control}
    (asked : .discard ∈ controls) (events : Told α) :
    let final := remains.run
      (controls.map (fun control => (listening, control.event)) ++ events)
    final.1 = discarded ∧ final.2.filterMap Notice.served? = [] := by
  intro final
  induction controls generalizing remains with
  | nil => cases asked
  | cons control others ih =>
      have first : final = remains.run ((listening, control.event) ::
        (others.map (fun control => (listening, control.event)) ++ events)) := rfl
      rw [first, run_cons]
      cases control with
      | close =>
          have idle : remains.handle listening Control.close.event = (remains, []) := by
            cases remains <;> rfl
          rw [idle]
          exact ih remains ((List.mem_cons.mp asked).resolve_left Control.noConfusion)
      | discard =>
          obtain ⟨notices, cleared, silent⟩ : ∃ notices,
              remains.handle listening Control.discard.event = (.discarded, notices) ∧
                notices.filterMap Notice.served? = [] := by
            cases remains with
            | closed items => exact ⟨_, rfl, filterMap_cleared _ (fun _ => rfl) items⟩
            | discarded => exact ⟨[], rfl, rfl⟩
          rw [cleared, List.filterMap_append, silent]
          exact ⟨run_discarded _, run_served rfl _⟩

end Remains

end CommandScript.Mailbox
