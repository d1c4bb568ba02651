import CommandScript.Proofs.Mailbox.Reaction

/-!
# How an actor comes to rest

Small steps keep an actor in order, and when none of them can be taken any more the actor is at
rest: nobody waits for what is there. So it is between any two events
(`CommandScript.Mailbox.Actor.run_atRest`).
-/

namespace CommandScript.Mailbox

variable {α : Type}

namespace Actor

variable {listening : RequestId → Bool} {before middle after : Actor α}
  {told more : List (Notice α)}

/-! ## What small steps keep -/

/-- What no small step ever changes. -/
structure SameMailbox (before after : Actor α) : Prop where
  capacity : after.capacity = before.capacity
  policy : after.policy = before.policy
  closed : after.closed = before.closed
  ended : after.ended = before.ended

theorem SameMailbox.refl (actor : Actor α) : SameMailbox actor actor :=
  ⟨rfl, rfl, rfl, rfl⟩

theorem SameMailbox.trans (first : SameMailbox before middle) (second : SameMailbox middle after) :
    SameMailbox before after :=
  ⟨second.capacity.trans first.capacity, second.policy.trans first.policy,
    second.closed.trans first.closed, second.ended.trans first.ended⟩

/-- Small steps leave capacity and policy alone. -/
theorem SmallStep.sameMailbox (step : SmallStep listening before after told) :
    SameMailbox before after := by
  cases step <;> exact ⟨rfl, rfl, rfl, rfl⟩

theorem Course.sameMailbox (course : Course listening before after told) :
    SameMailbox before after := by
  induction course with
  | done actor => exact .refl actor
  | step first rest ih => exact first.sameMailbox.trans ih

/-- The buffer is within its bound and its size is published, and pushes are blocked only in an open
mailbox that lets them wait. -/
structure Orderly (actor : Actor α) : Prop where
  within : actor.buffer.length ≤ actor.capacity
  published : actor.depth = actor.buffer.length
  blocking : actor.blocked ≠ [] → actor.policy = .block ∧ actor.closed = false

/-- Small steps keep an actor orderly. -/
theorem SmallStep.orderly (step : SmallStep listening before after told)
    (orderly : Orderly before) : Orderly after := by
  cases step with
  | enter first room hears =>
      have blocking := orderly.blocking (first ▸ List.cons_ne_nil _ _)
      refine ⟨?_, rfl, fun _ => blocking⟩
      simp only [withBuffer, List.length_append, List.length_singleton]
      exact room
  | passPush first deaf =>
      exact ⟨orderly.within, orderly.published,
        fun _ => orderly.blocking (first ▸ List.cons_ne_nil _ _)⟩
  | wake occupied => exact ⟨orderly.within, orderly.published, orderly.blocking⟩
  | deliver buffer first hears =>
      have within := orderly.within
      rw [buffer, List.length_cons] at within
      exact ⟨Nat.le_of_succ_le within, rfl, orderly.blocking⟩
  | passTaker first deaf => exact ⟨orderly.within, rfl, orderly.blocking⟩
  | fail drained closed => exact ⟨orderly.within, orderly.published, orderly.blocking⟩

theorem Course.orderly (course : Course listening before after told) (orderly : Orderly before) :
    Orderly after := by
  induction course with
  | done actor => exact orderly
  | step first rest ih => exact ih (first.orderly orderly)

/-! ## Actors at rest -/

/-- Nobody waits for what is there: a push is blocked only by a full buffer, and a request for an
item, or for word of one, waits only for the buffer of an open mailbox to get one. -/
structure AtRest (actor : Actor α) : Prop where
  within : actor.buffer.length ≤ actor.capacity
  published : actor.depth = actor.buffer.length
  full : actor.blocked ≠ [] →
    actor.policy = .block ∧ actor.closed = false ∧ actor.buffer.length = actor.capacity
  drained : actor.takers ≠ [] ∨ actor.waiters ≠ [] →
    actor.buffer = [] ∧ actor.closed = false ∧ actor.blocked = []
  stopped : actor.ended = true → actor.buffer = [] ∧ actor.held = []

/-- An actor at rest is orderly. -/
theorem AtRest.orderly {actor : Actor α} (rest : actor.AtRest) : Orderly actor :=
  ⟨rest.within, rest.published, fun waiting => ⟨(rest.full waiting).1, (rest.full waiting).2.1⟩⟩

/-- At rest no push waits while there is room. -/
theorem AtRest.blocked_of_room {actor : Actor α} (rest : actor.AtRest)
    (room : actor.buffer.length < actor.capacity) : actor.blocked = [] := by
  by_contra waiting
  exact Nat.ne_of_lt room (rest.full waiting).2.2

/-- At rest pushes wait only if that is the policy. -/
theorem AtRest.blocked_of_policy {actor : Actor α} (rest : actor.AtRest)
    (dropping : actor.policy ≠ .block) : actor.blocked = [] := by
  by_contra waiting
  exact dropping (rest.full waiting).1

/-- A fresh actor is at rest. -/
theorem new_atRest (capacity : Nat) (policy : Policy) : AtRest (new capacity policy : Actor α) where
  within := Nat.zero_le _
  published := rfl
  full := fun waiting => absurd rfl waiting
  drained := fun waiting => waiting.elim (absurd rfl) (absurd rfl)
  stopped := fun ended => Bool.noConfusion ended

/-- Blocked pushes remain only before a full buffer. -/
theorem fill_full (listening : RequestId → Bool) (actor : Actor α) (items : List (Item α)) :
    (actor.fill listening items).1.blocked ≠ [] →
      ¬ (actor.fill listening items).1.buffer.length < (actor.fill listening items).1.capacity := by
  induction items generalizing actor with
  | nil => exact fun waiting => absurd rfl waiting
  | cons item rest ih =>
      unfold fill
      by_cases room : actor.buffer.length < actor.capacity
      · cases hears : listening item.push with
        | true =>
            simp only [room, if_true]
            exact ih _
        | false =>
            simp only [room, if_true, Bool.false_eq_true, if_false]
            exact ih actor
      · simp only [room, if_false]
        exact fun _ => id

/-- After takers have been served, pushes are blocked only by a full buffer, and nobody waits for an
item that is there. -/
theorem serveTakers_idle (listening : RequestId → Bool) (actor : Actor α)
    (takers : List RequestId) :
    ((actor.serveTakers listening takers).1.blocked ≠ [] →
      ¬ (actor.serveTakers listening takers).1.buffer.length <
        (actor.serveTakers listening takers).1.capacity) ∧
    ((actor.serveTakers listening takers).1.buffer ≠ [] →
      (actor.serveTakers listening takers).1.takers = [] ∧
        (actor.serveTakers listening takers).1.waiters = []) := by
  induction takers generalizing actor with
  | nil =>
      unfold serveTakers
      have full := fill_full listening actor actor.blocked
      by_cases idle : (actor.fill listening actor.blocked).1.buffer.isEmpty = true
      · simp only [idle, if_true]
        rw [List.isEmpty_iff] at idle
        exact ⟨full, fun occupied => absurd idle occupied⟩
      · simp only [idle]
        exact ⟨full, fun _ => ⟨rfl, rfl⟩⟩
  | cons taker rest ih =>
      unfold serveTakers
      have full := fill_full listening actor actor.blocked
      by_cases idle : (actor.fill listening actor.blocked).1.buffer.isEmpty = true
      · simp only [idle, if_true]
        rw [List.isEmpty_iff] at idle
        exact ⟨full, fun occupied => absurd idle occupied⟩
      · simp only [idle]
        exact ih _

/-- An actor that has settled is at rest. -/
theorem settle_atRest (actor : Actor α) (orderly : Orderly actor) (running : actor.ended = false) :
    AtRest (actor.settle listening).1 := by
  have course := settle_course listening actor
  obtain ⟨within, published, blocking⟩ := course.orderly orderly
  have same := course.sameMailbox
  obtain ⟨full, idle⟩ := serveTakers_idle listening actor actor.takers
  -- settling only adds that nobody waits at the end of a closed mailbox
  have settled : ((actor.settle listening).1.blocked ≠ [] →
        ¬ (actor.settle listening).1.buffer.length < (actor.settle listening).1.capacity) ∧
      ((actor.settle listening).1.takers ≠ [] ∨ (actor.settle listening).1.waiters ≠ [] →
        (actor.settle listening).1.buffer = [] ∧ (actor.settle listening).1.closed = false) := by
    unfold settle
    by_cases drained : ((actor.serveTakers listening actor.takers).1.buffer.isEmpty &&
        (actor.serveTakers listening actor.takers).1.closed) = true
    · simp only [drained, if_true]
      exact ⟨full, fun waiting => waiting.elim (absurd rfl) (absurd rfl)⟩
    · simp only [drained]
      refine ⟨full, fun waiting => ?_⟩
      have empty : (actor.serveTakers listening actor.takers).1.buffer = [] := by
        by_contra occupied
        obtain ⟨takers, waiters⟩ := idle occupied
        exact waiting.elim (absurd takers) (absurd waiters)
      refine ⟨empty, ?_⟩
      rw [empty, List.isEmpty_nil, Bool.true_and, Bool.not_eq_true] at drained
      exact drained
  obtain ⟨crowded, waited⟩ := settled
  refine ⟨within, published, fun waiting => ?_, fun waiting => ?_, fun stopped => ?_⟩
  · obtain ⟨policy, isOpen⟩ := blocking waiting
    exact ⟨policy, isOpen, Nat.le_antisymm within (Nat.le_of_not_lt (crowded waiting))⟩
  · obtain ⟨empty, isOpen⟩ := waited waiting
    refine ⟨empty, isOpen, ?_⟩
    by_contra blocked
    exact crowded blocked ((actor.settle listening).1.room_of_empty empty)
  · rw [same.ended, running] at stopped
    cases stopped

/-! ## Events -/

/-- A buffer within the capacity is orderly. -/
theorem Orderly.withBuffer {actor : Actor α} (orderly : Orderly actor) {buffer : List (Item α)}
    (within : buffer.length ≤ actor.capacity) : Orderly (actor.withBuffer buffer) :=
  ⟨within, rfl, orderly.blocking⟩

/-- To count a drop leaves an actor orderly. -/
theorem Orderly.countDrop {actor : Actor α} (orderly : Orderly actor) : Orderly actor.countDrop :=
  ⟨orderly.within, orderly.published, orderly.blocking⟩

/-- What letting a push in never changes. -/
theorem Entry.sameMailbox {actor : Actor α} {item : Item α}
    (entry : Entry listening actor item middle told) : SameMailbox actor middle := by
  cases entry <;> exact ⟨rfl, rfl, rfl, rfl⟩

/-- A push that is let in leaves an actor in order. -/
theorem Entry.orderly {actor : Actor α} {item : Item α}
    (entry : Entry listening actor item middle told) (orderly : Orderly actor) :
    Orderly middle := by
  cases entry with
  | stays room hears =>
      refine orderly.withBuffer ?_
      rw [List.length_append, List.length_singleton]
      exact room
  | @replaces oldest evicted kept dropping whole hears =>
      have size : (kept ++ [item]).length = actor.buffer.length := by
        rw [(perm_of_split whole).length_eq, List.length_append]
        rfl
      exact (orderly.withBuffer (Nat.le_trans (Nat.le_of_eq size) orderly.within)).countDrop
  | undone deaf => exact orderly.withBuffer orderly.within
  | waits blocking isOpen =>
      exact ⟨orderly.within, orderly.published, fun _ => ⟨blocking, isOpen⟩⟩
  | lost dropping => exact orderly.countDrop

/-- An actor that is discarded is at rest. -/
theorem discard_atRest (actor : Actor α) : AtRest (actor.discard listening).1 where
  within := Nat.zero_le _
  published := rfl
  full := fun waiting => absurd rfl waiting
  drained := fun waiting => waiting.elim (absurd rfl) (absurd rfl)
  stopped := fun _ => ⟨rfl, rfl⟩

/-- An event leaves an actor at rest. -/
theorem Reaction.atRest {actor : Actor α} {event : Event α}
    (reaction : Reaction listening actor event after told) (rest : actor.AtRest) :
    after.AtRest := by
  cases reaction with
  | letsIn running entry =>
      exact settle_atRest _ (entry.orderly rest.orderly) (entry.sameMailbox.ended.trans running)
  | takes request running =>
      exact settle_atRest _ ⟨rest.within, rest.published, rest.orderly.blocking⟩ running
  | waits request running empty isOpen =>
      have unblocked := rest.blocked_of_room (actor.room_of_empty empty)
      refine ⟨rest.within, rest.published, rest.full, fun _ => ⟨empty, isOpen, unblocked⟩, ?_⟩
      intro stopped
      rw [running] at stopped
      cases stopped
  | closes running =>
      exact settle_atRest _ ⟨rest.within, rest.published, fun waiting => absurd rfl waiting⟩ running
  | discards => exact discard_atRest actor
  | _ => exact rest

/-- An actor comes to rest after every event. -/
theorem handle_atRest (listening : RequestId → Bool) (actor : Actor α) (rest : actor.AtRest)
    (event : Event α) : AtRest (actor.handle listening event).1 :=
  (handle_reaction listening actor event).atRest rest

/-- Between any two events an actor is at rest, whichever clients have given up in the meantime. -/
theorem run_atRest (actor : Actor α) (rest : actor.AtRest)
    (events : List ((RequestId → Bool) × Event α)) : AtRest (actor.run events).1 := by
  induction events generalizing actor with
  | nil => exact rest
  | cons event others ih =>
      obtain ⟨listening, event⟩ := event
      exact ih _ (handle_atRest listening actor rest event)

end Actor

end CommandScript.Mailbox
