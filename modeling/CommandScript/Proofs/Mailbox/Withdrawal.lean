import CommandScript.Proofs.Mailbox.Overflow

/-!
# Withdrawn pushes

A client may withdraw its push before the actor looks at it, or between this look and the answer.
In both cases nothing is left of the push, unless it is looked at before a full buffer whose policy
lets it wait or loses the item that comes in. There it waits in a queue where it is never seen, or
is counted as lost though nobody hears that it has been accepted.
-/

namespace CommandScript.Mailbox

variable {α : Type}

namespace Actor

variable {listening : RequestId → Bool} {actor : Actor α} {item : Item α}

/-- A push that the actor looks at does not find room. -/
structure Crowded (actor : Actor α) : Prop where
  running : actor.ended = false
  isOpen : actor.closed = false
  full : ¬ actor.buffer.length < actor.capacity

/-- Where there is no room there is an item. -/
theorem Crowded.occupied (crowded : actor.Crowded) : actor.buffer ≠ [] :=
  actor.occupied_of_full crowded.full

/-- An actor at rest that settles does nothing. -/
theorem AtRest.settle_eq (rest : actor.AtRest) (listening : RequestId → Bool) :
    actor.settle listening = (actor, []) := by
  refine settle_idle listening (fun waiting => ?_) fun asked => ?_
  · rw [(rest.full waiting).2.2]
    exact Nat.lt_irrefl _
  · obtain ⟨empty, isOpen, -⟩ := rest.drained asked
    exact ⟨empty, isOpen⟩

/-- An actor at rest publishes the size of its buffer already. -/
theorem AtRest.withBuffer_eq (rest : actor.AtRest) : actor.withBuffer actor.buffer = actor := by
  rw [withBuffer, ← rest.published]

/-- Before a full buffer nobody waits for an item. -/
theorem AtRest.nobody (rest : actor.AtRest) (crowded : actor.Crowded) :
    actor.takers = [] ∧ actor.waiters = [] := by
  by_contra asked
  rw [not_and_or] at asked
  exact crowded.occupied (rest.drained asked).1

/-- What is left of a push that is withdrawn when the actor has looked at it. -/
def afterWithdrawal (actor : Actor α) (item : Item α) : Actor α × List (Notice α) :=
  match actor.policy with
  | .block => ({ actor with blocked := actor.blocked ++ [item] }, [])
  | .dropHead => (actor, [])
  | .dropIncoming => (actor.countDrop, [.evicted item item.push])
  | .dropTail => (actor, [])

/-- The item that has made room returns to its place. -/
theorem AtRest.acceptEvicting_of_unheard (rest : actor.AtRest) (crowded : actor.Crowded)
    (deaf : listening item.push = false) (oldest : Bool) :
    actor.acceptEvicting listening item oldest = (actor, []) := by
  obtain ⟨evicted, kept, split, whole⟩ := splitAtEnd_of_ne_nil oldest crowded.occupied
  rw [acceptEvicting_eq actor item split whole, deaf, rest.withBuffer_eq]
  rfl

/-- What overflow does with a push to which nobody listens. -/
theorem AtRest.overflow_of_unheard (rest : actor.AtRest) (crowded : actor.Crowded)
    (deaf : listening item.push = false) :
    actor.overflow listening item = actor.afterWithdrawal item := by
  rw [overflow.eq_def, afterWithdrawal.eq_def]
  cases actor.policy with
  | block => rfl
  | dropHead => exact rest.acceptEvicting_of_unheard crowded deaf true
  | dropIncoming => simp only [answer, deaf, Bool.false_eq_true, if_false]
  | dropTail => exact rest.acceptEvicting_of_unheard crowded deaf false

/-- What is left of the push moves nothing. -/
theorem AtRest.settle_afterWithdrawal (rest : actor.AtRest) (crowded : actor.Crowded) :
    (actor.afterWithdrawal item).1.settle listening = ((actor.afterWithdrawal item).1, []) := by
  obtain ⟨takers, waiters⟩ := rest.nobody crowded
  rw [afterWithdrawal.eq_def]
  cases actor.policy with
  | block => exact settle_of_nobody listening takers waiters fun _ => crowded.full
  | dropHead => exact rest.settle_eq listening
  | dropIncoming => exact settle_of_nobody listening takers waiters fun _ => crowded.full
  | dropTail => exact rest.settle_eq listening

/-- What becomes of a push to a full mailbox to which nobody listens. -/
theorem AtRest.onPush_of_unheard (rest : actor.AtRest) (crowded : actor.Crowded)
    (deaf : listening item.push = false) :
    actor.onPush listening item = actor.afterWithdrawal item := by
  simp only [onPush, crowded.isOpen, crowded.full, rest.overflow_of_unheard crowded deaf,
    rest.settle_afterWithdrawal crowded, Bool.false_eq_true, if_false, List.append_nil]

/-- A push that would be refused or find room is undone. -/
theorem AtRest.handle_of_uncrowded (rest : actor.AtRest) (roomy : ¬ actor.Crowded)
    (deaf : listening item.push = false) :
    actor.handle listening (.push item true) = (actor, []) := by
  have silent (reply : Answer α) : answer listening item.push reply = [] := by
    rw [answer, deaf]
    rfl
  rw [handle]
  by_cases ended : actor.ended = true
  · rw [if_pos ended, afterEnd, silent]
  · rw [if_neg ended, if_pos rfl, onPush]
    by_cases closed : actor.closed = true
    · rw [if_pos closed, silent]
    · have room : actor.buffer.length < actor.capacity := by
        by_contra full
        exact roomy ⟨Bool.eq_false_iff.mpr ended, Bool.eq_false_iff.mpr closed, full⟩
      simp only [closed, room, accept_of_unheard actor deaf, rest.withBuffer_eq,
        rest.settle_eq listening, Bool.false_eq_true, if_true, if_false, List.append_nil]

/-- An actor that has no room deals with the push as with overflow. -/
theorem AtRest.handle_of_crowded (rest : actor.AtRest) (crowded : actor.Crowded)
    (deaf : listening item.push = false) :
    actor.handle listening (.push item true) = actor.afterWithdrawal item := by
  simp only [handle, crowded.running, rest.onPush_of_unheard crowded deaf, Bool.false_eq_true,
    if_true, if_false]

/-- What becomes of a push whose client has gone before it is answered. -/
structure Withdraws (listening : RequestId → Bool) (actor : Actor α) (item : Item α) : Prop where
  /-- A push that is withdrawn before it is looked at leaves nothing. -/
  unseen : actor.handle listening (.push item false) = (actor, [])
  /-- A push for which there is room, or which would be refused, leaves nothing. -/
  roomy : ¬ actor.Crowded → actor.handle listening (.push item true) = (actor, [])
  /-- A push for which an item makes room leaves nothing. -/
  evicting : actor.Crowded → actor.policy = .dropHead ∨ actor.policy = .dropTail →
    actor.handle listening (.push item true) = (actor, [])
  /-- A push that is blocked stays in the queue of those, and is not seen there. -/
  waiting : actor.Crowded → actor.policy = .block →
    actor.handle listening (.push item true) =
        ({ actor with blocked := actor.blocked ++ [item] }, []) ∧
      (actor.handle listening (.push item true)).1.erase (· == item.push) =
        actor.erase (· == item.push)
  /-- A push whose item is lost is counted as if it had been answered. -/
  losing : actor.Crowded → actor.policy = .dropIncoming →
    actor.handle listening (.push item true) = (actor.countDrop, [.evicted item item.push])

/-- At rest, all that can become of a push to which nobody listens is listed. -/
theorem AtRest.withdraws (rest : actor.AtRest) (deaf : listening item.push = false) :
    Withdraws listening actor item where
  unseen := by
    simp only [handle, afterEnd, answer, deaf, Bool.false_eq_true, if_false, ite_self]
  roomy few := rest.handle_of_uncrowded few deaf
  evicting crowded policy := by
    rw [rest.handle_of_crowded crowded deaf, afterWithdrawal]
    rcases policy with policy | policy <;> rw [policy]
  waiting crowded policy := by
    have left : actor.handle listening (.push item true) =
        ({ actor with blocked := actor.blocked ++ [item] }, []) := by
      rw [rest.handle_of_crowded crowded deaf, afterWithdrawal.eq_def, policy]
    refine ⟨left, ?_⟩
    rw [left]
    simp only [Actor.erase, List.filter_append, List.filter_singleton, beq_self_eq_true,
      Bool.not_true, cond_false, List.append_nil]
  losing crowded policy := by
    rw [rest.handle_of_crowded crowded deaf, afterWithdrawal, policy]

end Actor

/-- Whatever has happened to a mailbox before, a push whose client goes away before it is answered
leaves nothing behind, unless the buffer is full when the actor looks at the push: then the push of
a policy that lets it wait stays in its queue, where it is not seen, and the push of a policy that
loses the item that comes in is counted. -/
theorem run_withdraws (capacity : Nat) (policy : Policy) (history : Told α) (item : Item α)
    (listening : RequestId → Bool) (deaf : listening item.push = false) :
    Actor.Withdraws listening ((Actor.new capacity policy).run history).1 item :=
  (Actor.run_atRest _ (Actor.new_atRest capacity policy) history).withdraws deaf

/-- The second push is withdrawn, and the oldest item, which has made room for it, returns. -/
theorem run_withdraws_oldest :
    let actor := ((Actor.new 1 .dropHead).run [(fun _ => true, .push ⟨0, 'a'⟩ true)]).1
    actor.buffer = [⟨0, 'a'⟩] ∧ actor.Crowded ∧
      actor.handle (fun request => request != 1) (.push ⟨1, 'b'⟩ true) = (actor, []) := by
  intro actor
  have crowded : actor.Crowded := ⟨rfl, rfl, by decide⟩
  have withdraws := run_withdraws 1 .dropHead [(fun _ => true, .push ⟨0, 'a'⟩ true)] ⟨1, 'b'⟩
    (fun request => request != 1) rfl
  exact ⟨rfl, crowded, withdraws.evicting crowded (.inl rfl)⟩

/-- The second push is withdrawn, and its item is counted as lost. -/
theorem handle_counts_withdrawn :
    let actor := ((Actor.new 1 .dropIncoming).run [(fun _ => true, .push ⟨0, 'a'⟩ true)]).1
    let after := actor.handle (fun request => request != 1) (.push ⟨1, 'b'⟩ true)
    actor.discarded = 0 ∧ after.1.discarded = 1 ∧ ¬after = (actor, []) := by
  intro actor after
  have counted : after.1.discarded = 1 := rfl
  refine ⟨rfl, counted, fun same => ?_⟩
  rw [same] at counted
  exact Nat.zero_ne_one counted

end CommandScript.Mailbox
