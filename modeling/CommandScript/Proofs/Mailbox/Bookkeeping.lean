import CommandScript.Proofs.Mailbox.Books

/-!
# The steps that keep the books

Clients look at their requests, the actor serves its queues, and new requests are issued: each of
these keeps the books of a mailbox, and after a mailbox has come to rest no answer is left unseen.
-/

namespace CommandScript.Mailbox

variable {α : Type}

open History

/-! ## Looking at requests -/

/-- Requests that end, as a history. -/
def History.ofEnded (ended : List (RequestId × Outcome α)) : History α :=
  { History.empty with ended := ended }

/-- A mailbox listens to its pending requests. -/
theorem listening_of_mem {mailbox : Mailbox α} {pending : Pending}
    (member : pending ∈ mailbox.pending) : mailbox.listening pending.id = true :=
  (mailbox.listening_iff pending.id).mpr (List.mem_map_of_mem member)

/-- To enter a queue completes no request. -/
theorem enter_pending (mailbox : Mailbox α) (request : RequestId) :
    (mailbox.enter request).pending = mailbox.pending :=
  (enter_shift mailbox request).pending

/-- A change of place within a mailbox keeps the books. -/
theorem Books.enter {mailbox : Mailbox α} {history : History α} (books : Books mailbox history)
    {request : RequestId} (hears : mailbox.listening request = true) :
    Books (mailbox.enter request) history :=
  books.shift (enter_shift mailbox request)
    (fun _ member => List.mem_singleton.mp member ▸ hears) books.places
    (fun _ member => absurd member List.not_mem_nil)
    (fun _ _ member => absurd member List.not_mem_nil)

/-- A request without an answer has no entry among the answers. -/
theorem not_mem_of_lookup_eq_none {request : RequestId} {answers : List (RequestId × Answer α)}
    (none : answers.lookup request = none) : ∀ entry ∈ answers, entry.1 ≠ request := by
  intro entry member same
  have absent := List.lookup_eq_none_iff.mp none entry member
  rw [same] at absent
  simp at absent

/-- The answer that a client finds is the only one kept for it. -/
theorem perm_of_lookup_eq_some {request : RequestId} {answer : Answer α}
    {answers : List (RequestId × Answer α)} (once : (answers.map Prod.fst).count request ≤ 1)
    (found : answers.lookup request = some answer) :
    answers.Perm ((request, answer) :: answers.filter fun entry => entry.1 ≠ request) := by
  obtain ⟨front, back, rfl, absent⟩ := List.lookup_eq_some_iff.mp found
  have before : (front.filter fun entry => entry.1 ≠ request) = front := by
    rw [List.filter_eq_self]
    intro entry member
    have different := absent entry member
    rw [bne_iff_ne] at different
    exact decide_eq_true different.symm
  have behind : (back.filter fun entry => entry.1 ≠ request) = back := by
    rw [List.filter_eq_self]
    intro entry member
    refine decide_eq_true fun same => ?_
    have again : 0 < (back.map Prod.fst).count request :=
      List.count_pos_iff.mpr (List.mem_map.mpr ⟨entry, member, same⟩)
    rw [List.map_append, List.map_cons, List.count_append, List.count_cons_self] at once
    omega
  rw [List.filter_append, List.filter_cons, before, behind]
  simp

/-- A client that looks at its request finds an answer, or gives up with its token, or goes on
waiting. -/
theorem poll_cases (fired? : TokenId → Option Failure) (mailbox : Mailbox α) (pending : Pending) :
    (∃ answer, (mailbox.enter pending.id).answers.lookup pending.id = some answer ∧
      mailbox.poll fired? pending =
        ((mailbox.enter pending.id).forget pending.id, some answer.outcome)) ∨
    (∃ failure, (mailbox.enter pending.id).answers.lookup pending.id = none ∧
      pending.token.bind fired? = some failure ∧
      mailbox.poll fired? pending =
        ((mailbox.enter pending.id).forget pending.id, some (.error failure))) ∨
    ((mailbox.enter pending.id).answers.lookup pending.id = none ∧
      pending.token.bind fired? = none ∧
      mailbox.poll fired? pending = (mailbox.enter pending.id, none)) := by
  unfold Mailbox.poll
  cases found : (mailbox.enter pending.id).answers.lookup pending.id with
  | some answer => exact .inl ⟨answer, rfl, by simp only [found]⟩
  | none =>
      cases signal : pending.token.bind fired? with
      | some failure => exact .inr (.inl ⟨failure, rfl, rfl, by simp only [found]⟩)
      | none => exact .inr (.inr ⟨rfl, rfl, by simp only [found]⟩)

/-- To take out the answers of a request that has none changes nothing. -/
theorem filter_eq_self_of_lookup_eq_none {request : RequestId}
    {answers : List (RequestId × Answer α)} (none : answers.lookup request = none) :
    (answers.filter fun entry => entry.1 ≠ request) = answers := by
  rw [List.filter_eq_self]
  exact fun entry member => decide_eq_true (not_mem_of_lookup_eq_none none entry member)

/-- One look at a request keeps the books. -/
theorem Books.poll {mailbox : Mailbox α} {history : History α} (books : Books mailbox history)
    (fired? : TokenId → Option Failure) {pending : Pending} (member : pending ∈ mailbox.pending) :
    Books (mailbox.poll fired? pending).1
      (history ++ ofEnded ((mailbox.poll fired? pending).2.map (pending.id, ·)).toList) := by
  have entered := books.enter (listening_of_mem member)
  have hears : (mailbox.enter pending.id).listening pending.id = true :=
    listening_of_mem ((mailbox.enter_pending pending.id).symm ▸ member)
  rcases poll_cases fired? mailbox pending with
    ⟨answer, found, polled⟩ | ⟨failure, unseen, -, polled⟩ | ⟨-, -, polled⟩
  · rw [polled]
    have once : ((mailbox.enter pending.id).answers.map Prod.fst).count pending.id ≤ 1 := by
      have place := entered.places pending.id
      have single := List.nodup_iff_count.mp
        (List.nodup_range (n := (mailbox.enter pending.id).nextRequest)) pending.id
      simp only [standing, List.count_append] at place
      omega
    refine entered.forget hears rfl ?_ rfl rfl rfl
    have split := ((perm_of_lookup_eq_some once found).map
      fun entry => (entry.1, entry.2.outcome)).filterMap
        fun entry => entry.2.toOption.map fun answer => (entry.1, answer)
    refine split.trans (.of_eq ?_)
    rw [List.map_cons, ← List.singleton_append, List.filterMap_append]
    rfl
  · rw [polled]
    refine entered.forget hears rfl ?_ rfl rfl rfl
    rw [filter_eq_self_of_lookup_eq_none unseen]
    exact .refl _
  · rw [polled]
    exact (History.append_empty history).symm ▸ entered

/-- A look at a request leaves no answer to it, and adds no answer to another one. -/
theorem poll_answers (fired? : TokenId → Option Failure) (mailbox : Mailbox α)
    (pending : Pending) :
    ∀ entry ∈ (mailbox.poll fired? pending).1.answers,
      entry ∈ mailbox.answers ∧ entry.1 ≠ pending.id := by
  have shift := enter_shift mailbox pending.id
  intro entry present
  suffices earlier : entry ∈ (mailbox.enter pending.id).answers ∧ entry.1 ≠ pending.id from
    ⟨(shift.answers entry earlier.1).resolve_right
      fun same => earlier.2 (List.mem_singleton.mp same), earlier.2⟩
  rcases poll_cases fired? mailbox pending with
    ⟨answer, -, polled⟩ | ⟨failure, -, -, polled⟩ | ⟨unseen, -, polled⟩
  · rw [polled] at present
    exact (List.mem_filter.mp present).imp_right of_decide_eq_true
  · rw [polled] at present
    exact (List.mem_filter.mp present).imp_right of_decide_eq_true
  · rw [polled] at present
    exact ⟨present, not_mem_of_lookup_eq_none unseen entry present⟩

/-- A look at a request leaves the other requests pending. -/
theorem mem_poll_pending {fired? : TokenId → Option Failure} {mailbox : Mailbox α}
    {pending other : Pending} (member : other ∈ mailbox.pending)
    (different : other.id ≠ pending.id) :
    other ∈ (mailbox.poll fired? pending).1.pending := by
  have entered : other ∈ (mailbox.enter pending.id).pending :=
    (mailbox.enter_pending pending.id).symm ▸ member
  have kept : other ∈ ((mailbox.enter pending.id).forget pending.id).pending :=
    List.mem_filter.mpr ⟨entered, decide_eq_true different⟩
  rcases poll_cases fired? mailbox pending with
    ⟨answer, -, polled⟩ | ⟨failure, -, -, polled⟩ | ⟨-, -, polled⟩
  · exact polled ▸ kept
  · exact polled ▸ kept
  · exact polled ▸ entered

/-- The first request is polled before the others. -/
theorem pollEach_cons (fired? : TokenId → Option Failure) (mailbox : Mailbox α)
    (pending : Pending) (rest : List Pending) :
    mailbox.pollEach fired? (pending :: rest) =
      (((mailbox.poll fired? pending).1.pollEach fired? rest).1,
        ((mailbox.poll fired? pending).2.map (pending.id, ·)).toList ++
          ((mailbox.poll fired? pending).1.pollEach fired? rest).2) := by
  rw [pollEach]
  rcases mailbox.poll fired? pending with ⟨after, ended⟩
  cases ended <;> rfl

/-- A look at several requests keeps the books. -/
theorem Books.pollEach {mailbox : Mailbox α} {history : History α} (books : Books mailbox history)
    (fired? : TokenId → Option Failure) {requests : List Pending}
    (present : ∀ pending ∈ requests, pending ∈ mailbox.pending)
    (distinct : (requests.map Pending.id).Nodup) :
    Books (mailbox.pollEach fired? requests).1
      (history ++ ofEnded (mailbox.pollEach fired? requests).2) := by
  induction requests generalizing mailbox history with
  | nil => exact (History.append_empty history).symm ▸ books
  | cons pending rest ih =>
      rw [List.map_cons, List.nodup_cons] at distinct
      have polled := books.poll fired? (present pending List.mem_cons_self)
      have others : ∀ other ∈ rest, other ∈ (mailbox.poll fired? pending).1.pending := by
        intro other member
        refine mem_poll_pending (present other (List.mem_cons_of_mem _ member)) fun same => ?_
        exact distinct.1 (same ▸ List.mem_map_of_mem member)
      have final := ih polled others distinct.2
      rw [History.append_assoc] at final
      rw [pollEach_cons]
      exact final

/-- Of the answers those are left whose requests were not polled. -/
theorem pollEach_answers (fired? : TokenId → Option Failure) (mailbox : Mailbox α)
    (requests : List Pending) :
    ∀ entry ∈ (mailbox.pollEach fired? requests).1.answers,
      entry ∈ mailbox.answers ∧ entry.1 ∉ requests.map Pending.id := by
  induction requests generalizing mailbox with
  | nil => exact fun entry present => ⟨present, List.not_mem_nil⟩
  | cons pending rest ih =>
      intro entry present
      rw [pollEach_cons] at present
      obtain ⟨polled, later⟩ := ih _ entry present
      obtain ⟨earlier, different⟩ := poll_answers fired? mailbox pending entry polled
      refine ⟨earlier, ?_⟩
      rw [List.map_cons, List.mem_cons, not_or]
      exact ⟨different, later⟩

/-- A look at all requests keeps the books, and leaves no answer unseen. -/
theorem Books.pollAll {mailbox : Mailbox α} {history : History α} (books : Books mailbox history)
    (fired? : TokenId → Option Failure) :
    Books (mailbox.pollAll fired?).1 (history ++ ofEnded (mailbox.pollAll fired?).2) ∧
      (mailbox.pollAll fired?).1.answers = [] := by
  refine ⟨books.pollEach fired? (fun _ member => member) books.pending_nodup, ?_⟩
  rw [List.eq_nil_iff_forall_not_mem]
  intro entry present
  obtain ⟨earlier, absent⟩ := pollEach_answers fired? mailbox mailbox.pending entry present
  exact absent ((mailbox.listening_iff entry.1).mp (books.awaited entry earlier))

/-! ## Serving the queues -/

/-- Notices, as a history. -/
def History.ofNotices (notices : List (Notice α)) : History α :=
  { History.empty with notices := notices }

/-- What control requests tell the actor brings it nothing. -/
theorem filterMap_control {β : Type} (control : List Control) (bring : Event α → Option β)
    (close : bring .close = none) (discard : bring .discard = none) :
    (control.map Control.event).filterMap bring = [] := by
  rw [List.filterMap_map, List.filterMap_eq_nil_iff]
  intro request _
  cases request with
  | close => exact close
  | discard => exact discard

/-- The requests in the queues are the pushes, the takes and the waits that have a slot. -/
theorem queued_requests (mailbox : Mailbox α) :
    mailbox.queued.filterMap Event.request? =
      mailbox.pushes.map Item.push ++ mailbox.takes.seated ++ mailbox.waits.seated := by
  rw [queued, List.filterMap_append, List.filterMap_append, List.filterMap_append,
    filterMap_control _ _ rfl rfl, List.filterMap_map, List.filterMap_map, List.filterMap_map,
    List.nil_append]
  congr 2
  · exact congrFun List.filterMap_eq_map' mailbox.pushes
  · exact List.filterMap_some
  · exact List.filterMap_some

/-- The readers in the queues are the takes and the waits that have a slot. -/
theorem queued_readers (mailbox : Mailbox α) :
    mailbox.queued.filterMap Event.reader? = mailbox.takes.seated ++ mailbox.waits.seated := by
  have pushes : mailbox.pushes.filterMap
      ((Event.reader? : Event α → _) ∘ fun item => .push item (mailbox.listening item.push)) =
        [] := List.filterMap_eq_nil_iff.mpr fun _ _ => rfl
  rw [queued, List.filterMap_append, List.filterMap_append, List.filterMap_append,
    filterMap_control _ _ rfl rfl, List.filterMap_map, List.filterMap_map, List.filterMap_map,
    List.nil_append, pushes, List.nil_append]
  congr 1
  · exact List.filterMap_some
  · exact List.filterMap_some

/-- The items in the queues are those of the pushes that have a slot. -/
theorem queued_items (mailbox : Mailbox α) :
    mailbox.queued.filterMap Event.item? = mailbox.pushes := by
  have takes : mailbox.takes.seated.filterMap
      ((Event.item? : Event α → _) ∘ fun request => .take request (mailbox.listening request)) =
        [] := List.filterMap_eq_nil_iff.mpr fun _ _ => rfl
  have waits : mailbox.waits.seated.filterMap ((Event.item? : Event α → _) ∘ .wait) = [] :=
    List.filterMap_eq_nil_iff.mpr fun _ _ => rfl
  rw [queued, List.filterMap_append, List.filterMap_append, List.filterMap_append,
    filterMap_control _ _ rfl rfl, List.filterMap_map, List.filterMap_map, List.filterMap_map,
    takes, waits, List.nil_append, List.append_nil, List.append_nil]
  exact List.filterMap_some

/-- What the actor finds in the control queue was asked for, or closes the input at the end. -/
theorem mem_of_mem_orders {mailbox : Mailbox α} {control : Control}
    (member : control ∈ mailbox.orders) : control ∈ mailbox.control ∨ control = .close := by
  unfold orders at member
  split at member
  · rcases List.mem_append.mp member with asked | last
    · exact .inl asked
    · split at last
      · exact .inr (List.mem_singleton.mp last)
      · cases last
  · cases member

/-- The actor is told to give up only if it has been asked to. -/
theorem discard_mem_control {mailbox : Mailbox α} (told : Event.discard ∈ mailbox.queued) :
    Control.discard ∈ mailbox.control := by
  simp only [queued, List.mem_append, List.mem_map] at told
  rcases told with ((⟨request, member, same⟩ | ⟨_, _, same⟩) | ⟨_, _, same⟩) | ⟨_, _, same⟩
  · cases request with
    | close => cases same
    | discard => exact (mem_of_mem_orders member).resolve_right Control.noConfusion
  all_goals cases same

/-- What the queues tell of a client is true when they are served. -/
theorem queued_truthful (mailbox : Mailbox α) :
    ∀ event ∈ mailbox.queued, event.Truthful mailbox.listening := by
  intro event member
  simp only [queued, List.mem_append, List.mem_map] at member
  rcases member with ((⟨request, _, rfl⟩ | ⟨_, _, rfl⟩) | ⟨_, _, rfl⟩) | ⟨_, _, rfl⟩
  · cases request <;> exact trivial
  · exact id
  · exact trivial
  · exact trivial

/-- What the actor does with its queues is a fair move. -/
theorem serveQueues_moves (mailbox : Mailbox α) :
    Actor.Moves mailbox.listening mailbox.queued mailbox.actor mailbox.serveQueues.1.actor
      mailbox.serveQueues.2 :=
  mailbox.actor.run_moves mailbox.listening mailbox.queued mailbox.queued_truthful

/-- A reader is in line, at the actor or in a queue. -/
theorem mem_readers {mailbox : Mailbox α} {request : RequestId} :
    request ∈ mailbox.readers ↔
      (request ∈ mailbox.takes.line ∨ request ∈ mailbox.waits.line) ∨
        request ∈ mailbox.actor.takers ∨ request ∈ mailbox.actor.waiters ∨
          request ∈ mailbox.takes.seated ∨ request ∈ mailbox.waits.seated := by
  simp only [readers, ReadQueue.requests, List.mem_append]
  tauto

/-- Serving makes nobody a reader. -/
theorem serveQueues_readers {mailbox : Mailbox α} {request : RequestId}
    (present : request ∈ mailbox.serveQueues.1.readers ∨
      request ∈ mailbox.serveQueues.2.filterMap Notice.served?) :
    request ∈ mailbox.readers := by
  have moved := mailbox.serveQueues_moves.clientele request
  rw [queued_readers, List.mem_append] at moved
  rw [mem_readers] at present ⊢
  rcases present with (line | taker | waiter | seated | seated) | told
  · exact .inl line
  · exact .inr (moved (.inl taker))
  · exact .inr (moved (.inr (.inl waiter)))
  · exact absurd seated List.not_mem_nil
  · exact absurd seated List.not_mem_nil
  · exact .inr (moved (.inr (.inr told)))

/-- Serving makes no item up. -/
theorem serveQueues_items {mailbox : Mailbox α} {item : Item α}
    (present : item ∈ mailbox.serveQueues.1.actor.buffer ∨
      item ∈ mailbox.serveQueues.1.actor.blocked ∨
      item ∈ mailbox.serveQueues.2.filterMap Notice.departed?) :
    item ∈ mailbox.pushes ∨ item ∈ mailbox.actor.buffer ∨ item ∈ mailbox.actor.blocked := by
  have moved := mailbox.serveQueues_moves.provenance item present
  rw [queued_items] at moved
  rcases moved with buffered | blocked | queued
  · exact .inr (.inl buffered)
  · exact .inr (.inr blocked)
  · exact .inl queued

/-- The actor serves its queues and keeps the books. -/
theorem Books.serveQueues {mailbox : Mailbox α} {history : History α}
    (books : Books mailbox history) :
    Books mailbox.serveQueues.1 (history ++ ofNotices mailbox.serveQueues.2) := by
  have moves := mailbox.serveQueues_moves
  have answers : mailbox.serveQueues.1.answers =
      mailbox.answers ++ mailbox.serveQueues.2.filterMap Notice.answer? := rfl
  have same : mailbox.serveQueues.1.nextRequest = mailbox.nextRequest := rfl
  have pushed : (history ++ ofNotices mailbox.serveQueues.2).pushed = history.pushed :=
    List.append_nil _
  have ended : (history ++ ofNotices mailbox.serveQueues.2).ended = history.ended :=
    List.append_nil _
  have abandoned : (history ++ ofNotices mailbox.serveQueues.2).abandoned = history.abandoned :=
    List.append_nil _
  refine
    { requests := ?_
      places := fun request => ?_
      awaited := fun entry member => ?_
      distinct := pushed ▸ books.distinct
      issued := pushed ▸ books.issued
      known := fun item present => ?_
      reading := fun request present => ?_
      granted := ?_
      balance := fun push => ?_
      blamed := fun eviction member => ?_
      counted := ?_
      published := moves.published books.published
      intact := fun kept => ?_ }
  · rw [ended, abandoned]
    exact books.requests
  · have place := books.places request
    have queueing := moves.queueing request
    rw [queued_requests] at queueing
    have served : mailbox.serveQueues.1.standing =
        (mailbox.answers ++ mailbox.serveQueues.2.filterMap Notice.answer?).map Prod.fst ++ [] ++
          mailbox.overflow.map Item.push ++ ([] ++ mailbox.takes.line) ++
            ([] ++ mailbox.waits.line) ++ mailbox.serveQueues.1.actor.held := rfl
    rw [same, served]
    simp only [standing, ReadQueue.requests, List.map_append, List.count_append,
      List.count_nil] at place queueing ⊢
    omega
  · rw [answers, List.mem_append] at member
    exact member.elim (books.awaited entry) (moves.heard entry)
  · rw [pushed]
    rw [notices_append, List.filterMap_append, List.mem_append] at present
    have served (moved : item ∈ mailbox.serveQueues.1.actor.buffer ∨
        item ∈ mailbox.serveQueues.1.actor.blocked ∨
        item ∈ mailbox.serveQueues.2.filterMap Notice.departed?) : item ∈ history.pushed := by
      rcases serveQueues_items moved with queued | buffered | blocked
      · exact books.known item (.inl queued)
      · exact books.known item (.inr (.inr (.inl buffered)))
      · exact books.known item (.inr (.inr (.inr (.inl blocked))))
    rcases present with queued | aside | buffered | blocked | departed | departed
    · exact absurd queued List.not_mem_nil
    · exact books.known item (.inr (.inl aside))
    · exact served (.inl buffered)
    · exact served (.inr (.inl blocked))
    · exact books.known item (.inr (.inr (.inr (.inr departed))))
    · exact served (.inr (.inr departed))
  · rw [pushed, same]
    rw [notices_append, List.filterMap_append, List.mem_append] at present
    refine books.reading request ?_
    rcases present with reader | earlier | told
    · exact .inl (serveQueues_readers (.inl reader))
    · exact .inr earlier
    · exact .inl (serveQueues_readers (.inr told))
  · rw [answers, ended, notices_append, List.filterMap_append, outcomes_append, outcomes_append,
      grants_append, grants_append, ← List.append_assoc]
    exact books.granted.append_right _
  · have before := books.balance push
    have balance := moves.balance push
    simp only [notices_append, ofNotices, List.filterMap_append, List.map_append,
      List.count_append]
    omega
  · simp only [notices_append, ofNotices, List.filterMap_append, List.mem_append] at member ⊢
    exact member.imp (books.blamed eviction) (moves.blamed eviction)
  · rw [moves.counted, books.counted, notices_append, List.filterMap_append, List.length_append]
    rfl
  · rw [givenUp_append, Bool.or_eq_false_iff] at kept
    obtain ⟨undiscarded, running, cleared⟩ := books.intact kept.1
    obtain ⟨ended, none⟩ := moves.lasting fun told => undiscarded (discard_mem_control told)
    refine ⟨List.not_mem_nil, ended.trans running, ?_⟩
    rw [notices_append, List.filterMap_append, cleared]
    exact none

/-- Some of the pushes set aside enter their queue, and the books stay in order. -/
theorem Books.letIn {mailbox : Mailbox α} {history : History α} (books : Books mailbox history)
    (idle : mailbox.pushes = []) :
    Books
      { mailbox with
        pushes := mailbox.overflow.take mailbox.slots
        overflow := mailbox.overflow.drop mailbox.slots } history := by
  have whole := List.take_append_drop mailbox.slots mailbox.overflow
  refine books.shift (?_ : Shift [] [] [] mailbox _)
    (fun _ member => absurd member List.not_mem_nil) books.places
    (fun _ member => absurd member List.not_mem_nil)
    (fun _ _ member => absurd member List.not_mem_nil)
  refine ⟨rfl, rfl, rfl, rfl, fun request => ?_, fun item present => ?_, fun _ => .inl,
    fun _ => .inl, rfl⟩
  · have split := congrArg (fun items => (items.map Item.push).count request) whole
    simp only [List.map_append, List.count_append] at split
    simp only [standing, idle, List.map_nil, List.count_append, List.count_nil]
    omega
  · have member : item ∈ mailbox.overflow := whole ▸ List.mem_append.mpr present
    exact .inr (.inl member)

/-- The pushes set aside are served in turns. -/
theorem Books.serveOverflow {mailbox : Mailbox α} {history : History α}
    (books : Books mailbox history) (idle : mailbox.pushes = []) (rounds : Nat) :
    Books (mailbox.serveOverflow rounds).1
      (history ++ ofNotices (mailbox.serveOverflow rounds).2) := by
  induction rounds generalizing mailbox history with
  | zero => exact (History.append_empty history).symm ▸ books
  | succ rounds ih =>
      unfold Mailbox.serveOverflow
      split
      · exact (History.append_empty history).symm ▸ books
      · have final := ih (books.letIn idle).serveQueues rfl
        rw [History.append_assoc] at final
        exact final

/-- The actor serves its queues and the pushes set aside, and keeps the books. -/
theorem Books.serve {mailbox : Mailbox α} {history : History α} (books : Books mailbox history) :
    Books mailbox.serve.1 (history ++ ofNotices mailbox.serve.2) := by
  have final := books.serveQueues.serveOverflow rfl mailbox.serveQueues.1.overflow.length
  rw [History.append_assoc] at final
  exact final

/-! ## Coming to rest -/

/-- The books stay in order in any number of rounds. -/
theorem Books.settleFor {mailbox : Mailbox α} {history : History α}
    (books : Books mailbox history) (fired? : TokenId → Option Failure) (rounds : Nat) :
    Books (mailbox.settleFor fired? rounds).1
        (history ++ ofSettled (mailbox.settleFor fired? rounds).2) ∧
      (mailbox.settleFor fired? rounds).1.answers = [] := by
  induction rounds generalizing mailbox history with
  | zero => exact books.pollAll fired?
  | succ rounds ih =>
      obtain ⟨final, seen⟩ := ih (books.pollAll fired?).1.serve
      refine ⟨?_, seen⟩
      rw [History.append_assoc, History.append_assoc] at final
      have told : ofEnded (mailbox.pollAll fired?).2 ++
            (ofNotices (mailbox.pollAll fired?).1.serve.2 ++
              ofSettled ((mailbox.pollAll fired?).1.serve.1.settleFor fired? rounds).2) =
          ofSettled (mailbox.settleFor fired? (rounds + 1)).2 := by
        ext1 <;> rfl
      rw [told] at final
      exact final

/-- Requests that end may be told in the order of their numbers. -/
theorem Books.reorder {mailbox : Mailbox α} {history : History α} {settled : Settled α}
    (books : Books mailbox (history ++ ofSettled settled)) :
    Books mailbox (history ++ ofSettled { settled with done := byNumber settled.done }) := by
  have sorted : (byNumber settled.done).Perm settled.done := List.mergeSort_perm ..
  have same : (history.ended ++ byNumber settled.done).Perm (history.ended ++ settled.done) :=
    sorted.append_left history.ended
  refine
    { books with
      requests := fun request => ?_
      granted := ?_ }
  · rw [← books.requests request]
    congr 2
    exact (same.map Prod.fst).count_eq request
  · exact books.granted.trans (List.Perm.append_right _ (same.filterMap _).symm)

/-- A mailbox that comes to rest keeps the books, and leaves no answer unseen. -/
theorem Books.settle {mailbox : Mailbox α} {history : History α} (books : Books mailbox history)
    (fired? : TokenId → Option Failure) :
    Books (mailbox.settle fired?).1 (history ++ ofSettled (mailbox.settle fired?).2) ∧
      (mailbox.settle fired?).1.answers = [] := by
  obtain ⟨final, seen⟩ := books.settleFor fired?
    (mailbox.takes.line.length + mailbox.waits.line.length + 1)
  exact ⟨final.reorder, seen⟩

/-! ## Issuing requests -/

/-- The mailbox with a further pending request. -/
def register (mailbox : Mailbox α) (token : Option TokenId) : Mailbox α :=
  { mailbox with
    nextRequest := mailbox.nextRequest + 1
    pending := mailbox.pending ++ [⟨mailbox.nextRequest, token⟩] }

/-- A value pushed by a request, as a history. -/
def History.ofPushed (request : RequestId) (value : Option α) : History α :=
  { History.empty with pushed := (value.map fun value => ⟨request, value⟩).toList }

/-- A new number occurs once more. -/
theorem count_range_succ (bound request : Nat) :
    (List.range (bound + 1)).count request =
      (List.range bound).count request + [bound].count request := by
  rw [List.range_succ, List.count_append]

/-- The numbers of pushes are all used up. -/
theorem Books.push_lt {mailbox : Mailbox α} {history : History α} (books : Books mailbox history)
    {push : RequestId} (member : push ∈ history.pushed.map Item.push) :
    push < mailbox.nextRequest := by
  obtain ⟨item, pushed, rfl⟩ := List.mem_map.mp member
  exact books.issued item pushed

/-- A new request is registered, with the item that it pushes if it is a push. -/
theorem Books.register {mailbox : Mailbox α} {history : History α} (books : Books mailbox history)
    (token : Option TokenId) (value : Option α) :
    Books (mailbox.register token) (history ++ ofPushed mailbox.nextRequest value) := by
  have notices : (history ++ ofPushed mailbox.nextRequest value).notices = history.notices :=
    List.append_nil _
  have ended : (history ++ ofPushed mailbox.nextRequest value).ended = history.ended :=
    List.append_nil _
  have abandoned : (history ++ ofPushed mailbox.nextRequest value).abandoned =
      history.abandoned := List.append_nil _
  have new {item : Item α} (member : item ∈ (ofPushed mailbox.nextRequest value).pushed) :
      item.push = mailbox.nextRequest := by
    obtain ⟨pushed, -, rfl⟩ := Option.map_eq_some_iff.mp (Option.mem_toList.mp member)
    rfl
  refine
    { requests := fun request => ?_
      places := fun request => ?_
      awaited := fun entry member => ?_
      distinct := ?_
      issued := fun item member => ?_
      known := fun item present => ?_
      reading := fun request present => ?_
      granted := ?_
      balance := notices ▸ books.balance
      blamed := notices ▸ books.blamed
      counted := notices ▸ books.counted
      published := books.published
      intact := ?_ }
  · have known := books.requests request
    rw [ended, abandoned]
    simp only [Mailbox.register, List.map_append, List.map_cons, List.map_nil, List.count_append,
      count_range_succ]
    omega
  · have place := books.places request
    simp only [Mailbox.register, count_range_succ]
    exact Nat.le_trans place (Nat.le_add_right ..)
  · have earlier := (mailbox.listening_iff entry.1).mp (books.awaited entry member)
    rw [listening_iff, Mailbox.register, List.map_append]
    exact List.mem_append_left _ earlier
  · rw [pushed_append, List.map_append, List.nodup_append]
    refine ⟨books.distinct, ?_, ?_⟩
    · cases value with
      | none => exact List.nodup_nil
      | some value => exact List.nodup_singleton _
    · rintro push member other fresh rfl
      obtain ⟨item, pushed, same⟩ := List.mem_map.mp fresh
      have bound := books.push_lt member
      rw [← same, new pushed] at bound
      exact Nat.lt_irrefl _ bound
  · rw [pushed_append, List.mem_append] at member
    refine Nat.lt_succ_of_le ?_
    rcases member with earlier | pushed
    · exact Nat.le_of_lt (books.issued item earlier)
    · exact Nat.le_of_eq (new pushed)
  · rw [notices] at present
    rw [pushed_append]
    exact List.mem_append_left _ (books.known item present)
  · rw [notices] at present
    obtain ⟨bound, other⟩ := books.reading request present
    refine ⟨Nat.lt_succ_of_lt bound, ?_⟩
    rw [pushed_append, List.map_append, List.mem_append, not_or]
    refine ⟨other, fun fresh => ?_⟩
    obtain ⟨item, pushed, same⟩ := List.mem_map.mp fresh
    rw [← same, new pushed] at bound
    exact Nat.lt_irrefl _ bound
  · rw [notices, ended]
    exact books.granted
  · rw [notices, givenUp_append, show (ofPushed mailbox.nextRequest value).givenUp = false from rfl,
      Bool.or_false]
    exact books.intact

/-- A request is issued: it is registered, put into its place, and looked at. -/
theorem Books.issue {mailbox : Mailbox α} {history : History α} (books : Books mailbox history)
    (seen : mailbox.answers = []) (fired? : TokenId → Option Failure) (token : Option TokenId)
    (value : Option α) (put : Mailbox α → RequestId → Mailbox α)
    (shift : Shift [mailbox.nextRequest] (ofPushed mailbox.nextRequest value).pushed
      [mailbox.nextRequest] (mailbox.register token)
      (put (mailbox.register token) mailbox.nextRequest)) :
    Books (mailbox.issue fired? token put).1
        (history ++ (ofPushed mailbox.nextRequest value ++
          ofEnded ((mailbox.issue fired? token put).2.ended?).toList)) ∧
      (mailbox.issue fired? token put).1.answers = [] := by
  have registered := books.register token value
  have hears : (mailbox.register token).listening mailbox.nextRequest = true := by
    rw [listening_iff, Mailbox.register, List.map_append]
    exact List.mem_append_right _ (List.mem_singleton.mpr rfl)
  have placed := registered.shift shift (fun _ member => List.mem_singleton.mp member ▸ hears)
    (fun request => by
      have place := books.places request
      simp only [Mailbox.register, count_range_succ]
      exact Nat.add_le_add_right place _)
    (fun item member => List.mem_append_right _ member)
    (fun none request member => by
      rw [List.mem_singleton.mp member, pushed_append, none, List.append_nil]
      exact ⟨Nat.lt_succ_self _, fun pushed => Nat.lt_irrefl _ (books.push_lt pushed)⟩)
  have present : (⟨mailbox.nextRequest, token⟩ : Pending) ∈
      (put (mailbox.register token) mailbox.nextRequest).pending := by
    rw [shift.pending]
    exact List.mem_append_right _ (.head _)
  refine ⟨?_, ?_⟩
  · have polled := placed.poll fired? present
    rw [History.append_assoc] at polled
    exact polled
  · rw [List.eq_nil_iff_forall_not_mem]
    intro entry member
    obtain ⟨earlier, different⟩ := poll_answers fired? _ _ entry member
    rcases shift.answers entry earlier with old | new
    · rw [show (mailbox.register token).answers = [] from seen] at old
      exact absurd old List.not_mem_nil
    · exact different (List.mem_singleton.mp new)

end CommandScript.Mailbox
