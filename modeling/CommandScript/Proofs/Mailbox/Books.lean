import CommandScript.Proofs.Mailbox.History
import Mathlib.Data.List.Nodup

/-!
# The books of a mailbox

The books relate a mailbox to its history: every request has ended, was given up or is pending, it
stands in at most one place, and the items that were acknowledged are those that are buffered or
have departed. Polling, serving and issuing requests keep the books.
-/

namespace CommandScript.Mailbox

variable {α : Type}

open History

/-- The answers that clients have not seen, as they will end their requests. -/
def outcomes (answers : List (RequestId × Answer α)) : List (RequestId × Outcome α) :=
  answers.map fun entry => (entry.1, entry.2.outcome)

/-- The requests in a queue. -/
def ReadQueue.requests (queue : ReadQueue) : List RequestId :=
  queue.seated ++ queue.line

/-- The places where a request can stand. -/
def standing (mailbox : Mailbox α) : List RequestId :=
  mailbox.answers.map Prod.fst ++ mailbox.pushes.map Item.push ++ mailbox.overflow.map Item.push ++
    mailbox.takes.requests ++ mailbox.waits.requests ++ mailbox.actor.held

/-- The places where a request for an item, or for word of one, can stand. -/
def readers (mailbox : Mailbox α) : List RequestId :=
  mailbox.takes.requests ++ mailbox.waits.requests ++ mailbox.actor.takers ++
    mailbox.actor.waiters

/-- The books of a mailbox with a history. -/
structure Books (mailbox : Mailbox α) (history : History α) : Prop where
  /-- A request that was issued has ended, was given up, or is pending. -/
  requests : ∀ request : RequestId,
    (history.ended.map Prod.fst).count request + history.abandoned.count request +
        (mailbox.pending.map Pending.id).count request =
      (List.range mailbox.nextRequest).count request
  /-- A request that was issued stands in at most one place. -/
  places : ∀ request : RequestId,
    mailbox.standing.count request ≤ (List.range mailbox.nextRequest).count request
  /-- Answers are kept for clients that still listen. -/
  awaited : ∀ entry ∈ mailbox.answers, mailbox.listening entry.1 = true
  distinct : (history.pushed.map Item.push).Nodup
  issued : ∀ item ∈ history.pushed, item.push < mailbox.nextRequest
  /-- Every item in the mailbox and every departed one was pushed. -/
  known : ∀ item : Item α,
    item ∈ mailbox.pushes ∨ item ∈ mailbox.overflow ∨ item ∈ mailbox.actor.buffer ∨
        item ∈ mailbox.actor.blocked ∨ item ∈ history.notices.filterMap Notice.departed? →
      item ∈ history.pushed
  /-- No request for an item is the push of one. -/
  reading : ∀ request : RequestId,
    request ∈ mailbox.readers ∨ request ∈ history.notices.filterMap Notice.served? →
      request < mailbox.nextRequest ∧ request ∉ history.pushed.map Item.push
  /-- The answers that were given are those that ended requests and those not seen yet. -/
  granted : (grants (outcomes (history.notices.filterMap Notice.answer?))).Perm
    (grants history.ended ++ grants (outcomes mailbox.answers))
  /-- What was acknowledged is buffered or has departed. -/
  balance : ∀ push : RequestId,
    (history.notices.filterMap Notice.accepted?).count push =
      (mailbox.actor.buffer.map Item.push).count push +
        ((history.notices.filterMap Notice.departed?).map Item.push).count push
  blamed : ∀ eviction ∈ history.notices.filterMap Notice.eviction?,
    eviction.2 ∈ history.notices.filterMap Notice.accepted?
  counted : mailbox.actor.discarded = (history.notices.filterMap Notice.eviction?).length
  published : mailbox.actor.depth = mailbox.actor.buffer.length
  intact : history.givenUp = false →
    Control.discard ∉ mailbox.control ∧ mailbox.actor.ended = false ∧
      history.notices.filterMap Notice.cleared? = []

/-- A fresh mailbox has empty books. -/
theorem Books.fresh (capacity : Nat) (policy : Policy) (slots : Nat) :
    Books (new capacity policy slots : Mailbox α) History.empty where
  requests := fun _ => rfl
  places := fun _ => Nat.le_refl 0
  awaited := fun _ member => absurd member List.not_mem_nil
  distinct := List.nodup_nil
  issued := fun _ member => absurd member List.not_mem_nil
  known := by simp [new, Actor.new, History.empty]
  reading := by
    simp [readers, ReadQueue.requests, ReadQueue.empty, new, Actor.new, History.empty]
  granted := .refl _
  balance := fun _ => rfl
  blamed := fun _ member => absurd member List.not_mem_nil
  counted := rfl
  published := rfl
  intact := fun _ => ⟨List.not_mem_nil, rfl, rfl⟩

/-! ## Requests that change their place -/

/-- Requests change their places within a mailbox; some may be new, and some may learn that the
mailbox does not run any more. -/
structure Shift (refused : List RequestId) (arrived : List (Item α)) (asked : List RequestId)
    (before after : Mailbox α) : Prop where
  actor : after.actor = before.actor
  pending : after.pending = before.pending
  nextRequest : after.nextRequest = before.nextRequest
  control : after.control = before.control
  standing : ∀ request, after.standing.count request ≤
    before.standing.count request + asked.count request
  items : ∀ item, item ∈ after.pushes ∨ item ∈ after.overflow →
    item ∈ before.pushes ∨ item ∈ before.overflow ∨ item ∈ arrived
  readers : ∀ request ∈ after.readers, request ∈ before.readers ∨ request ∈ asked ∧ arrived = []
  answers : ∀ entry ∈ after.answers, entry ∈ before.answers ∨ entry.1 ∈ refused
  granted : grants (outcomes after.answers) = grants (outcomes before.answers)

/-- The books stay in order when requests change their places. -/
theorem Books.shift {mailbox after : Mailbox α} {history : History α}
    {refused asked : List RequestId} {arrived : List (Item α)} (books : Books mailbox history)
    (shift : Shift refused arrived asked mailbox after)
    (hears : ∀ request ∈ refused, mailbox.listening request = true)
    (room : ∀ request, mailbox.standing.count request + asked.count request ≤
      (List.range mailbox.nextRequest).count request)
    (pushes : ∀ item ∈ arrived, item ∈ history.pushed)
    (asking : arrived = [] → ∀ request ∈ asked,
      request < mailbox.nextRequest ∧ request ∉ history.pushed.map Item.push) :
    Books after history where
  requests := by
    rw [shift.pending, shift.nextRequest]
    exact books.requests
  places := by
    intro request
    rw [shift.nextRequest]
    exact Nat.le_trans (shift.standing request) (room request)
  awaited := by
    intro entry member
    have same : after.listening = mailbox.listening := by
      funext request
      rw [listening, listening, shift.pending]
    rw [same]
    exact (shift.answers entry member).elim (books.awaited entry) (hears entry.1)
  distinct := books.distinct
  issued := by
    rw [shift.nextRequest]
    exact books.issued
  known := by
    intro item present
    rw [shift.actor] at present
    have moved := shift.items item
    have known := books.known item
    have new := pushes item
    tauto
  reading := by
    intro request present
    rw [shift.nextRequest]
    rcases present with reader | served
    · rcases shift.readers request reader with earlier | ⟨new, none⟩
      · exact books.reading request (.inl earlier)
      · exact asking none request new
    · exact books.reading request (.inr served)
  granted := by
    rw [shift.granted]
    exact books.granted
  balance := by
    rw [shift.actor]
    exact books.balance
  blamed := books.blamed
  counted := by
    rw [shift.actor]
    exact books.counted
  published := by
    rw [shift.actor]
    exact books.published
  intact := by
    rw [shift.actor, shift.control]
    exact books.intact

theorem grants_append (front back : List (RequestId × Outcome α)) :
    grants (front ++ back) = grants front ++ grants back :=
  List.filterMap_append

theorem outcomes_append (front back : List (RequestId × Answer α)) :
    outcomes (front ++ back) = outcomes front ++ outcomes back :=
  List.map_append

/-- To record that the mailbox does not run any more grants nothing. -/
theorem grants_outcomes_record (answers : List (RequestId × Answer α)) (request : RequestId) :
    grants (outcomes (answers ++ [(request, .notRunning)])) = grants (outcomes answers) := by
  rw [outcomes_append, grants_append]
  exact List.append_nil _

/-- A request that enters a queue stays among its requests unless it is turned away. -/
theorem ReadQueue.enter_requests (queue : ReadQueue) (slots : Nat) (closed : Bool)
    (request : RequestId) :
    ((queue.enter slots closed request).1.requests ++
      if (queue.enter slots closed request).2 then [request] else []).Perm queue.requests := by
  unfold ReadQueue.enter
  split
  · exact .of_eq (List.append_nil _)
  · rename_i first rest line
    split
    · exact .of_eq (List.append_nil _)
    · rename_i same
      rw [not_not] at same
      subst same
      split
      · simp only [requests, line, if_true]
        rw [List.append_assoc]
        exact List.Perm.append_left _ (List.perm_append_singleton first rest)
      · split
        · simp [requests, line]
        · exact .of_eq (List.append_nil _)

/-- A request that enters a queue has moved from the line into it. -/
theorem enter_shift (mailbox : Mailbox α) (request : RequestId) :
    Shift [request] [] [] mailbox (mailbox.enter request) := by
  have takes := mailbox.takes.enter_requests mailbox.slots mailbox.actor.ended request
  have waits := mailbox.waits.enter_requests mailbox.slots mailbox.actor.ended request
  unfold enter
  generalize mailbox.takes.enter mailbox.slots mailbox.actor.ended request = taking at takes ⊢
  generalize mailbox.waits.enter mailbox.slots mailbox.actor.ended request = waiting at waits ⊢
  obtain ⟨taking, takeFails⟩ := taking
  obtain ⟨waiting, waitFails⟩ := waiting
  have staying (other : RequestId) :
      other ∈ taking.requests ++ waiting.requests →
        other ∈ mailbox.takes.requests ++ mailbox.waits.requests := by
    rw [List.mem_append, List.mem_append, ← takes.mem_iff, ← waits.mem_iff]
    exact Or.imp (List.mem_append_left _) (List.mem_append_left _)
  by_cases refused : (takeFails || waitFails) = true
  · simp only [refused, if_true]
    refine ⟨rfl, rfl, rfl, rfl, fun other => ?_, fun _ => Or.imp_right .inl, ?_, ?_,
      grants_outcomes_record _ _⟩
    · have taken := takes.count_eq other
      have waited := waits.count_eq other
      rw [Bool.or_eq_true] at refused
      simp only [record, standing, List.map_append, List.map_cons, List.map_nil,
        List.count_append] at taken waited ⊢
      rcases refused with first | second
      · rw [if_pos first] at taken
        omega
      · rw [if_pos second] at waited
        omega
    · intro other member
      have stays := staying other
      simp only [record, readers, List.mem_append] at member stays ⊢
      tauto
    · intro entry member
      rw [record, List.mem_append, List.mem_singleton] at member
      exact member.imp_right fun same => List.mem_singleton.mpr (congrArg Prod.fst same)
  · simp only [refused, Bool.false_eq_true, if_false]
    refine ⟨rfl, rfl, rfl, rfl, fun other => ?_, fun _ => Or.imp_right .inl, ?_,
      fun _ => .inl, rfl⟩
    · have taken := takes.count_eq other
      have waited := waits.count_eq other
      simp only [standing, List.count_append] at taken waited ⊢
      omega
    · intro other member
      have stays := staying other
      simp only [readers, List.mem_append] at member stays ⊢
      tauto

/-! ## Requests that leave -/

/-- A mailbox listens to the clients of its pending requests. -/
theorem listening_iff (mailbox : Mailbox α) (request : RequestId) :
    mailbox.listening request = true ↔ request ∈ mailbox.pending.map Pending.id := by
  simp only [listening, List.any_eq_true, decide_eq_true_eq, List.mem_map]

/-- A request that is pending is pending once. -/
theorem Books.pending_nodup {mailbox : Mailbox α} {history : History α}
    (books : Books mailbox history) : (mailbox.pending.map Pending.id).Nodup := by
  rw [List.nodup_iff_count]
  intro request
  have known := books.requests request
  have once := List.nodup_iff_count.mp (List.nodup_range (n := mailbox.nextRequest)) request
  omega

/-- To forget a request takes it from those that are pending. -/
theorem forget_pending (mailbox : Mailbox α) (request : RequestId) :
    (mailbox.forget request).pending.map Pending.id =
      (mailbox.pending.map Pending.id).filter (· ≠ request) := by
  rw [List.filter_map]
  rfl

/-- A mailbox no longer listens to a request that it forgets. -/
theorem forget_listening_iff (mailbox : Mailbox α) (request other : RequestId) :
    (mailbox.forget request).listening other = true ↔
      mailbox.listening other = true ∧ other ≠ request := by
  rw [listening_iff, listening_iff, forget_pending, List.mem_filter, decide_eq_true_eq]

/-- A pending request leaves a mailbox. -/
theorem Books.forget {mailbox : Mailbox α} {history later : History α} {request : RequestId}
    (books : Books mailbox history) (hears : mailbox.listening request = true)
    (leaves : later.ended.map Prod.fst ++ later.abandoned = [request])
    (granted : (grants (outcomes mailbox.answers)).Perm (grants later.ended ++
      grants (outcomes (mailbox.answers.filter fun entry => entry.1 ≠ request))))
    (pushed : later.pushed = []) (notices : later.notices = []) (givenUp : later.givenUp = false) :
    Books (mailbox.forget request) (history ++ later) where
  requests := by
    intro other
    have known := books.requests other
    have left := congrArg (List.count other) leaves
    have same : (mailbox.forget request).nextRequest = mailbox.nextRequest := rfl
    rw [forget_pending, same, ended_append, abandoned_append, List.map_append]
    simp only [List.count_append] at left ⊢
    by_cases equal : request = other
    · subst equal
      have once := List.count_eq_one_of_mem books.pending_nodup
        ((mailbox.listening_iff request).mp hears)
      have gone : ((mailbox.pending.map Pending.id).filter (· ≠ request)).count request = 0 :=
        List.count_eq_zero.mpr fun member => by simp at member
      rw [List.count_singleton_self] at left
      omega
    · have kept : ((mailbox.pending.map Pending.id).filter (· ≠ request)).count other =
          (mailbox.pending.map Pending.id).count other :=
        List.count_filter (by simpa using Ne.symm equal)
      rw [List.count_eq_zero.mpr fun member => equal (List.mem_singleton.mp member).symm] at left
      omega
  places := by
    intro other
    have known := books.places other
    have answers : ((mailbox.answers.filter fun entry => entry.1 ≠ request).map Prod.fst).count
        other ≤ (mailbox.answers.map Prod.fst).count other :=
      (List.filter_sublist.map Prod.fst).count_le other
    have takes : (mailbox.takes.line.filter fun entry => entry ≠ request).count other ≤
        mailbox.takes.line.count other := List.filter_sublist.count_le other
    have waits : (mailbox.waits.line.filter fun entry => entry ≠ request).count other ≤
        mailbox.waits.line.count other := List.filter_sublist.count_le other
    have same : (mailbox.forget request).nextRequest = mailbox.nextRequest := rfl
    rw [same]
    refine Nat.le_trans ?_ known
    simp only [standing, Mailbox.forget, ReadQueue.requests, ReadQueue.leave, List.count_append]
    omega
  awaited := by
    intro entry member
    obtain ⟨earlier, different⟩ := List.mem_filter.mp member
    rw [decide_eq_true_eq] at different
    exact (mailbox.forget_listening_iff request entry.1).mpr
      ⟨books.awaited entry earlier, different⟩
  distinct := by
    rw [pushed_append, pushed, List.append_nil]
    exact books.distinct
  issued := by
    rw [pushed_append, pushed, List.append_nil]
    exact books.issued
  known := by
    rw [pushed_append, pushed, notices_append, notices, List.append_nil, List.append_nil]
    exact books.known
  reading := by
    rw [pushed_append, pushed, notices_append, notices, List.append_nil, List.append_nil]
    intro other present
    refine books.reading other (present.imp_left fun member => ?_)
    simp only [readers, Mailbox.forget, ReadQueue.requests, ReadQueue.leave, List.mem_append,
      List.mem_filter] at member ⊢
    tauto
  granted := by
    rw [notices_append, notices, List.append_nil, ended_append, grants_append, List.append_assoc]
    exact books.granted.trans (granted.append_left _)
  balance := by
    rw [notices_append, notices, List.append_nil]
    exact books.balance
  blamed := by
    rw [notices_append, notices, List.append_nil]
    exact books.blamed
  counted := by
    rw [notices_append, notices, List.append_nil]
    exact books.counted
  published := books.published
  intact := by
    rw [notices_append, notices, List.append_nil, givenUp_append, givenUp, Bool.or_false]
    exact books.intact

end CommandScript.Mailbox
