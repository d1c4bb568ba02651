import CommandScript.Mailbox.World
import CommandScript.Proofs.Mailbox.Moves

/-!
# Histories of a mailbox

A history is what a run of a mailbox has told so far: the values that were pushed, the requests that
ended and how, the requests that were given up, and what happened to items. It is read off the
operations and the reports alone.
-/

namespace CommandScript.Mailbox

variable {α : Type}

/-- What has been told of a mailbox. -/
structure History (α : Type) where
  pushed : List (Item α)
  ended : List (RequestId × Outcome α)
  abandoned : List RequestId
  notices : List (Notice α)
  /-- The mailbox has been asked to be discarded. -/
  givenUp : Bool

/-- The value that an operation pushes. -/
def Operation.value? : Operation α → Option α
  | .push value => some value
  | .tryPush value => some value
  | .pushWith value _ => some value
  | _ => none

/-- The request that a reply tells to have been issued. -/
def Reply.issue? : Reply α → Option (Issue α)
  | .issued issue => some issue
  | _ => none

/-- The pending request that an operation gives up. -/
def Operation.abandoned? : Operation α → Reply α → Option RequestId
  | .abandon request, .abandoned true => some request
  | _, _ => none

/-- The operation has asked for the mailbox to be discarded. -/
def Operation.isDiscard : Operation α → Reply α → Bool
  | .discard, .silent => true
  | _, _ => false

/-- The client that gets an item with a notice, and the item. -/
def Notice.handed? : Notice α → Option (RequestId × Item α)
  | .answered request (.delivered item) => some (request, item)
  | _ => none

/-- The item that an answer hands over. -/
def Answer.item? : Answer α → Option (Item α)
  | .delivered item => some item
  | _ => none

/-- How a request ended that ended at once. -/
def Issue.ended? (issue : Issue α) : Option (RequestId × Outcome α) :=
  issue.outcome.map fun outcome => (issue.id, outcome)

namespace History

/-- Nothing has been told. -/
def empty : History α :=
  ⟨[], [], [], [], false⟩

/-- One history and then another. -/
def append (history later : History α) : History α where
  pushed := history.pushed ++ later.pushed
  ended := history.ended ++ later.ended
  abandoned := history.abandoned ++ later.abandoned
  notices := history.notices ++ later.notices
  givenUp := history.givenUp || later.givenUp

instance : Append (History α) :=
  ⟨append⟩

/-- What one operation tells. -/
def ofOperation (operation : Operation α) (reply : Reply α) : History α where
  pushed :=
    (operation.value?.bind fun value => reply.issue?.map fun issue => ⟨issue.id, value⟩).toList
  ended := (reply.issue?.bind Issue.ended?).toList
  abandoned := (operation.abandoned? reply).toList
  notices := []
  givenUp := operation.isDiscard reply

/-- What operations in a row tell. -/
def ofOperations : List (Operation α) → List (Reply α) → History α
  | operation :: operations, reply :: replies =>
    ofOperation operation reply ++ ofOperations operations replies
  | _, _ => empty

/-- What is told while the mailbox comes to rest. -/
def ofSettled (settled : Settled α) : History α where
  pushed := []
  ended := settled.done
  abandoned := []
  notices := settled.notices
  givenUp := false

/-- What a run tells. -/
def ofRun : List (List (Operation α)) → List (World.Report α) → History α
  | operations :: steps, report :: reports =>
    ofOperations operations report.replies ++ ofSettled report.settled ++ ofRun steps reports
  | _, _ => empty

@[simp] theorem pushed_append (history later : History α) :
    (history ++ later).pushed = history.pushed ++ later.pushed := rfl

@[simp] theorem ended_append (history later : History α) :
    (history ++ later).ended = history.ended ++ later.ended := rfl

@[simp] theorem abandoned_append (history later : History α) :
    (history ++ later).abandoned = history.abandoned ++ later.abandoned := rfl

@[simp] theorem notices_append (history later : History α) :
    (history ++ later).notices = history.notices ++ later.notices := rfl

@[simp] theorem givenUp_append (history later : History α) :
    (history ++ later).givenUp = (history.givenUp || later.givenUp) := rfl

@[ext] theorem ext {history other : History α} (pushed : history.pushed = other.pushed)
    (ended : history.ended = other.ended) (abandoned : history.abandoned = other.abandoned)
    (notices : history.notices = other.notices) (givenUp : history.givenUp = other.givenUp) :
    history = other := by
  cases history
  cases other
  cases pushed
  cases ended
  cases abandoned
  cases notices
  cases givenUp
  rfl

@[simp] theorem append_empty (history : History α) : history ++ empty = history := by
  ext1 <;> simp [empty]

@[simp] theorem empty_append (history : History α) : empty ++ history = history := by
  ext1 <;> simp [empty]

theorem append_assoc (history later last : History α) :
    history ++ later ++ last = history ++ (later ++ last) := by
  ext1 <;> simp [List.append_assoc, Bool.or_assoc]

/-- What does not happen tells nothing. -/
theorem ofOperation_unavailable (operation : Operation α) :
    ofOperation operation .unavailable = empty := by
  cases operation <;> rfl

/-! ## What a history says of items and requests -/

/-- The answers that requests ended with. -/
def grants (ended : List (RequestId × Outcome α)) : List (RequestId × Answer α) :=
  ended.filterMap fun entry => entry.2.toOption.map fun answer => (entry.1, answer)

/-- The requests that ended with an item, and the item that each got. -/
def taken (history : History α) : List (RequestId × Item α) :=
  (grants history.ended).filterMap fun entry => entry.2.item?.map fun item => (entry.1, item)

/-- The pushed values whose push ended well. -/
def acknowledged (history : History α) : List (Item α) :=
  history.pushed.filter fun item =>
    history.ended.any fun entry => entry.1 = item.push && entry.2.isOk

/-- The items that were handed to clients. -/
def handed (history : History α) : List (RequestId × Item α) :=
  history.notices.filterMap Notice.handed?

/-- The items that were lost to overflow, each with the push that made it so. -/
def overflowed (history : History α) : List (Item α × RequestId) :=
  history.notices.filterMap Notice.eviction?

/-- The items that were thrown away with the mailbox. -/
def cleared (history : History α) : List (Item α) :=
  history.notices.filterMap Notice.cleared?

/-- A pushed value whose push failed or was given up before it ended. -/
def Failed (history : History α) (item : Item α) : Prop :=
  item ∈ history.pushed ∧
    ((∃ failure, (item.push, .error failure) ∈ history.ended) ∨ item.push ∈ history.abandoned)

end History

end CommandScript.Mailbox
