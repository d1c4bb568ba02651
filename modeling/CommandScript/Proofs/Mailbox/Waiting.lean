import CommandScript.Proofs.Mailbox.Attention
import CommandScript.Proofs.Mailbox.Conservation
import CommandScript.Proofs.Mailbox.Service

/-!
# Nobody waits in vain

Once a mailbox has come to rest, its queues are empty, and a request is pending only for a reason:
a push is blocked by a full buffer, a take or a wait stands before the empty buffer of an open
mailbox, or only a token can end it (`CommandScript.Mailbox.run_quiet`).
-/

namespace CommandScript.Mailbox

variable {α : Type}

open History

/-! ## Requests and what they ask for -/

/-- What an operation asks for, if it makes a request. -/
def Operation.purpose? : Operation α → Option Purpose
  | .push _ => some .push
  | .tryPush _ => some .push
  | .pushWith _ _ => some .push
  | .take => some .take
  | .takeWith _ => some .take
  | .wait => some .wait
  | .awaitToken _ => some .token
  | _ => none

/-- The request that an operation makes according to its reply, and what it asks for. -/
def Operation.request? (operation : Operation α) (reply : Reply α) : Option (RequestId × Purpose) :=
  operation.purpose?.bind fun purpose => reply.issue?.map fun issue => (issue.id, purpose)

/-- An operation that is not available makes no request. -/
theorem Operation.request?_unavailable (operation : Operation α) :
    operation.request? .unavailable = none := by
  cases operation <;> rfl

/-- The requests that operations in a row make. -/
def requestsOfOperations : List (Operation α) → List (Reply α) → List (RequestId × Purpose)
  | operation :: operations, reply :: replies =>
    (operation.request? reply).toList ++ requestsOfOperations operations replies
  | _, _ => []

/-- The requests that are made in a run. -/
def requestsOf : List (List (Operation α)) → List (World.Report α) → List (RequestId × Purpose)
  | operations :: steps, report :: reports =>
    requestsOfOperations operations report.replies ++ requestsOf steps reports
  | _, _ => []

/-- The requests of a purpose that have a slot in their queue. -/
def queuedFor (mailbox : Mailbox α) : Purpose → List RequestId
  | .push => mailbox.pushes.map Item.push
  | .take => mailbox.takes.seated
  | .wait => mailbox.waits.seated
  | .token => []

/-- The requests of a purpose that have no slot yet. -/
def linedFor (mailbox : Mailbox α) : Purpose → List RequestId
  | .push => mailbox.overflow.map Item.push
  | .take => mailbox.takes.line
  | .wait => mailbox.waits.line
  | .token => []

/-- A request whose client listens can only be ended by a token, or has been answered, or stands
where the requests of its purpose stand. -/
def Placed (request : RequestId × Purpose) (mailbox : Mailbox α) : Prop :=
  mailbox.listening request.1 = true →
    request.2 = .token ∨ request.1 ∈ mailbox.answers.map Prod.fst ∨
      request.1 ∈ mailbox.queuedFor request.2 ++ mailbox.linedFor request.2 ++
        mailbox.actor.waiting request.2

/-- The requests made so far are numbered in order, each has its place, and whoever stands in line
listens. -/
structure Accounted (mailbox : Mailbox α) (requests : List (RequestId × Purpose)) : Prop where
  numbered : requests.map Prod.fst = List.range mailbox.nextRequest
  placed : ∀ request ∈ requests, Placed request mailbox
  attended : mailbox.Attended

/-! ## Looking and serving keep requests in their places -/

variable {request : RequestId × Purpose} {mailbox after : Mailbox α}

/-- A request keeps its place if those who listen did before, and nobody loses a place or an
answer. -/
theorem Placed.mono (placed : Placed request mailbox)
    (listening : after.listening request.1 = true → mailbox.listening request.1 = true)
    (answers : request.1 ∈ mailbox.answers.map Prod.fst → after.listening request.1 = true →
      request.1 ∈ after.answers.map Prod.fst)
    (places : request.1 ∈ mailbox.queuedFor request.2 ++ mailbox.linedFor request.2 ++
        mailbox.actor.waiting request.2 → after.listening request.1 = true →
      request.1 ∈ after.answers.map Prod.fst ∨
        request.1 ∈ after.queuedFor request.2 ++ after.linedFor request.2 ++
          after.actor.waiting request.2) :
    Placed request after := by
  intro hears
  rcases placed (listening hears) with token | answered | place
  · exact .inl token
  · exact .inr (.inl (answers answered hears))
  · exact .inr (places place hears)

/-- Who enters a queue, or is turned away from one, was in it before. -/
theorem ReadQueue.mem_requests_enter {queue : ReadQueue} (slots : Nat) (closed : Bool)
    (id : RequestId) {other : RequestId} (present : other ∈ queue.requests) :
    other ∈ (queue.enter slots closed id).1.requests ∨
      other = id ∧ (queue.enter slots closed id).2 = true := by
  rw [← (queue.enter_requests slots closed id).mem_iff, List.mem_append] at present
  refine present.imp_right fun refused => ?_
  split at refused
  · rename_i fails
    exact ⟨List.mem_singleton.mp refused, fails⟩
  · cases refused

/-- Whoever enters the queue of an actor that has ended is refused. -/
theorem enter_answers (mailbox : Mailbox α) (id : RequestId) :
    (mailbox.enter id).answers = mailbox.answers ++
      if (mailbox.takes.enter mailbox.slots mailbox.actor.ended id).2 ||
        (mailbox.waits.enter mailbox.slots mailbox.actor.ended id).2 then [(id, .notRunning)]
      else [] := by
  unfold enter
  dsimp only
  split
  · rfl
  · exact (List.append_nil _).symm

/-- A request keeps its place when another enters. -/
theorem enter_placed (id : RequestId) (placed : Placed request mailbox) :
    Placed request (mailbox.enter id) := by
  obtain ⟨number, purpose⟩ := request
  have unserved := mailbox.enter_unserved id
  have answers := mailbox.enter_answers id
  -- who is turned away finds an answer
  have refused (fails : (mailbox.takes.enter mailbox.slots mailbox.actor.ended id).2 = true ∨
      (mailbox.waits.enter mailbox.slots mailbox.actor.ended id).2 = true) :
      id ∈ (mailbox.enter id).answers.map Prod.fst := by
    rw [answers, if_pos ((Bool.or_eq_true ..).mpr fails), List.map_append]
    exact List.mem_append_right _ (List.mem_singleton.mpr rfl)
  refine placed.mono ?_ ?_ ?_
  · rw [listening_iff, listening_iff, enter_pending]
    exact fun hears => hears
  · intro answered _
    rw [answers, List.map_append]
    exact List.mem_append_left _ answered
  · intro place _
    rw [List.mem_append] at place ⊢
    rw [unserved.actor]
    rcases place with place | waiting
    · cases purpose with
      | push =>
          right; left
          simp only [queuedFor, linedFor, unserved.pushes, unserved.overflow] at place ⊢
          exact place
      | take =>
          have stays := mailbox.takes.mem_requests_enter mailbox.slots mailbox.actor.ended id place
          simp only [queuedFor, linedFor, enter_takes]
          rcases stays with stays | ⟨rfl, fails⟩
          · exact .inr (.inl stays)
          · exact .inl (refused (.inl fails))
      | wait =>
          have stays := mailbox.waits.mem_requests_enter mailbox.slots mailbox.actor.ended id place
          simp only [queuedFor, linedFor, enter_waits]
          rcases stays with stays | ⟨rfl, fails⟩
          · exact .inr (.inl stays)
          · exact .inl (refused (.inr fails))
      | token => cases place
    · exact .inr (.inr waiting)

/-- A request keeps its place when another is forgotten. -/
theorem forget_placed (id : RequestId) (placed : Placed request mailbox) :
    Placed request (mailbox.forget id) := by
  obtain ⟨number, purpose⟩ := request
  have different (hears : (mailbox.forget id).listening number = true) : number ≠ id :=
    ((mailbox.forget_listening_iff id number).mp hears).2
  refine placed.mono (fun hears => ((mailbox.forget_listening_iff id number).mp hears).1) ?_ ?_
  · intro answered hears
    obtain ⟨entry, member, same⟩ := List.mem_map.mp answered
    refine List.mem_map.mpr ⟨entry, List.mem_filter.mpr ⟨member, decide_eq_true ?_⟩, same⟩
    rw [same]
    exact different hears
  · intro place hears
    refine .inr ?_
    cases purpose with
    | push => exact place
    | token => exact place
    | _ =>
        simp only [queuedFor, linedFor, Mailbox.forget, ReadQueue.leave, List.mem_append,
          List.mem_filter, decide_eq_true_eq] at place ⊢
        exact place.imp_left (Or.imp_right fun lined => ⟨lined, different hears⟩)

/-- A request that stays pending keeps its place. -/
theorem poll_placed (fired? : TokenId → Option Failure) (pending : Pending)
    (placed : Placed request mailbox) : Placed request (mailbox.poll fired? pending).1 := by
  have entered := enter_placed pending.id placed
  rcases poll_cases fired? mailbox pending with
    ⟨answer, -, polled⟩ | ⟨failure, -, -, polled⟩ | ⟨-, -, polled⟩
  · exact polled ▸ forget_placed pending.id entered
  · exact polled ▸ forget_placed pending.id entered
  · exact polled ▸ entered

/-- A request that has a slot is among those that the actor finds. -/
theorem mem_queued_asking {purpose : Purpose} {id : RequestId}
    (queued : id ∈ mailbox.queuedFor purpose) :
    id ∈ mailbox.queued.filterMap (Event.asking? purpose) := by
  rw [List.mem_filterMap]
  simp only [Mailbox.queued, List.mem_append]
  cases purpose with
  | push =>
      obtain ⟨item, member, rfl⟩ := List.mem_map.mp queued
      exact ⟨_, .inl (.inl (.inr (List.mem_map_of_mem member))), rfl⟩
  | take => exact ⟨_, .inl (.inr (List.mem_map_of_mem queued)), rfl⟩
  | wait => exact ⟨_, .inr (List.mem_map_of_mem queued), rfl⟩
  | token => cases queued

/-- The events in the queues are attentive to their clients. -/
theorem queued_attentive (mailbox : Mailbox α) :
    ∀ event ∈ mailbox.queued, event.Attentive mailbox.listening := by
  intro event member
  simp only [Mailbox.queued, List.mem_append, List.mem_map] at member
  rcases member with ((⟨control, _, rfl⟩ | ⟨item, _, rfl⟩) | ⟨id, _, rfl⟩) | ⟨id, _, rfl⟩
  · cases control <;> exact trivial
  · exact fun hears => hears
  · exact fun hears => hears
  · exact trivial

/-- A request that is served stands before the actor or is answered. -/
theorem serveQueues_placed (placed : Placed request mailbox) :
    Placed request mailbox.serveQueues.1 := by
  obtain ⟨number, purpose⟩ := request
  have answers : mailbox.serveQueues.1.answers =
      mailbox.answers ++ mailbox.serveQueues.2.filterMap Notice.answer? := rfl
  have lined : mailbox.serveQueues.1.linedFor purpose = mailbox.linedFor purpose := by
    cases purpose <;> rfl
  have keeps : Actor.Keeps mailbox.listening mailbox.queued mailbox.actor
      mailbox.serveQueues.1.actor mailbox.serveQueues.2 :=
    Actor.run_keeps mailbox.listening mailbox.actor mailbox.queued mailbox.queued_attentive
  refine placed.mono (fun hears => hears) ?_ ?_
  · intro answered _
    rw [answers, List.map_append]
    exact List.mem_append_left _ answered
  · intro place hears
    rw [answers, List.map_append, lined]
    have kept := keeps purpose number hears
    simp only [List.mem_append] at place ⊢
    rcases place with (queued | line) | waiting
    · rcases kept (.inr (mem_queued_asking queued)) with waiting | told
      · exact .inr (.inr waiting)
      · exact .inl (.inr told)
    · exact .inr (.inl (.inr line))
    · rcases kept (.inl waiting) with waiting | told
      · exact .inr (.inr waiting)
      · exact .inl (.inr told)

/-- A push that is let in has its place in the queue. -/
theorem letIn_placed (idle : mailbox.pushes = []) (placed : Placed request mailbox) :
    Placed request mailbox.letIn := by
  obtain ⟨number, purpose⟩ := request
  refine placed.mono (fun hears => hears) (fun answered _ => answered) fun place _ => .inr ?_
  cases purpose with
  | push =>
      have whole := List.take_append_drop mailbox.slots mailbox.overflow
      simp only [queuedFor, linedFor, letIn, idle, List.map_nil, List.nil_append] at place ⊢
      rw [← List.map_append, whole]
      exact place
  | _ => exact place

/-- A mailbox that comes to rest keeps account of all requests. -/
theorem Accounted.settle {requests : List (RequestId × Purpose)}
    (accounted : Accounted mailbox requests) (fired? : TokenId → Option Failure) :
    Accounted (mailbox.settle fired?).1 requests := by
  have kept := settleFor_induct
    (fun after _ => after.nextRequest = mailbox.nextRequest ∧
      ∀ request ∈ requests, Placed request after) []
    (fun middle _ pending holds =>
      ⟨(middle.poll_unserved fired? pending).nextRequest.trans holds.1,
        fun request member => poll_placed fired? pending (holds.2 request member)⟩)
    (fun middle _ holds =>
      ⟨holds.1, fun request member => serveQueues_placed (holds.2 request member)⟩)
    (fun middle _ idle holds =>
      ⟨holds.1, fun request member => letIn_placed idle (holds.2 request member)⟩)
    ⟨rfl, accounted.placed⟩ mailbox.rounds
  obtain ⟨numbers, placed⟩ : (mailbox.settle fired?).1.nextRequest = mailbox.nextRequest ∧
    ∀ request ∈ requests, Placed request (mailbox.settle fired?).1 := kept
  have served := settle_served fired? accounted.attended
  refine ⟨numbers ▸ accounted.numbered, placed, fun id inLine => ?_⟩
  rw [served.takes, served.waits] at inLine
  exact inLine.elim (absurd · List.not_mem_nil) (absurd · List.not_mem_nil)

/-! ## Requests are put into their places -/

/-- A way to put a request for a purpose into its place, which disturbs no other request. -/
structure Puts (purpose : Purpose) (put : Mailbox α → RequestId → Mailbox α) : Prop where
  pending : ∀ mailbox id, (put mailbox id).pending = mailbox.pending
  nextRequest : ∀ mailbox id, (put mailbox id).nextRequest = mailbox.nextRequest
  places : ∀ mailbox id request, Placed request mailbox → Placed request (put mailbox id)
  new : ∀ mailbox id, Placed (id, purpose) (put mailbox id)
  lined : ∀ mailbox id other,
    other ∈ (put mailbox id).takes.line ∨ other ∈ (put mailbox id).waits.line →
      (other ∈ mailbox.takes.line ∨ other ∈ mailbox.waits.line) ∨ other = id

/-- A push is put into the queue or set aside. -/
theorem puts_push (value : α) : Puts .push (putPush value) where
  pending := by
    intro mailbox id
    unfold putPush
    split
    · rfl
    · split <;> rfl
  nextRequest := by
    intro mailbox id
    unfold putPush
    split
    · rfl
    · split <;> rfl
  places := by
    intro mailbox id request placed
    obtain ⟨number, purpose⟩ := request
    unfold putPush
    split
    · refine placed.mono (fun hears => hears) (fun answered _ => ?_) fun place _ => .inr place
      rw [record, List.map_append]
      exact List.mem_append_left _ answered
    · split
      · refine placed.mono (fun hears => hears) (fun answered _ => answered) fun place _ => .inr ?_
        cases purpose with
        | push =>
            simp only [queuedFor, linedFor, List.map_append, List.mem_append] at place ⊢
            tauto
        | _ => exact place
      · refine placed.mono (fun hears => hears) (fun answered _ => answered) fun place _ => .inr ?_
        cases purpose with
        | push =>
            simp only [queuedFor, linedFor, List.map_append, List.mem_append] at place ⊢
            tauto
        | _ => exact place
  new := by
    intro mailbox id _
    unfold putPush
    split
    · refine .inr (.inl ?_)
      rw [record, List.map_append]
      exact List.mem_append_right _ (List.mem_singleton.mpr rfl)
    · split
      · refine .inr (.inr ?_)
        simp [queuedFor]
      · refine .inr (.inr ?_)
        simp [linedFor]
  lined := by
    intro mailbox id other
    unfold putPush
    split
    · exact .inl
    · split <;> exact .inl

theorem puts_take : Puts .take (putTake : Mailbox α → RequestId → Mailbox α) where
  pending := fun _ _ => rfl
  nextRequest := fun _ _ => rfl
  places := by
    intro mailbox id request placed
    obtain ⟨number, purpose⟩ := request
    refine placed.mono (fun hears => hears) (fun answered _ => answered) fun place _ => .inr ?_
    cases purpose with
    | take =>
        simp only [queuedFor, linedFor, putTake, ReadQueue.join, List.mem_append] at place ⊢
        tauto
    | _ => exact place
  new := by
    intro mailbox id _
    refine .inr (.inr ?_)
    simp [linedFor, putTake, ReadQueue.join]
  lined := by
    intro mailbox id other present
    simp only [putTake, ReadQueue.join, List.mem_append, List.mem_singleton] at present
    tauto

theorem puts_wait : Puts .wait (putWait : Mailbox α → RequestId → Mailbox α) where
  pending := fun _ _ => rfl
  nextRequest := fun _ _ => rfl
  places := by
    intro mailbox id request placed
    obtain ⟨number, purpose⟩ := request
    refine placed.mono (fun hears => hears) (fun answered _ => answered) fun place _ => .inr ?_
    cases purpose with
    | wait =>
        simp only [queuedFor, linedFor, putWait, ReadQueue.join, List.mem_append] at place ⊢
        tauto
    | _ => exact place
  new := by
    intro mailbox id _
    refine .inr (.inr ?_)
    simp [linedFor, putWait, ReadQueue.join]
  lined := by
    intro mailbox id other present
    simp only [putWait, ReadQueue.join, List.mem_append, List.mem_singleton] at present
    tauto

/-- A request that waits for a token only needs no place. -/
theorem puts_token : Puts .token fun (mailbox : Mailbox α) _ => mailbox where
  pending := fun _ _ => rfl
  nextRequest := fun _ _ => rfl
  places := fun _ _ _ placed => placed
  new := fun _ _ _ => .inl rfl
  lined := fun _ _ _ => .inl

/-- A request that is issued is accounted for. -/
theorem Accounted.issue {requests : List (RequestId × Purpose)}
    (accounted : Accounted mailbox requests) (fired? : TokenId → Option Failure)
    (token : Option TokenId) {purpose : Purpose} {put : Mailbox α → RequestId → Mailbox α}
    (puts : Puts purpose put) :
    Accounted (mailbox.issue fired? token put).1
      (requests ++ [(mailbox.nextRequest, purpose)]) := by
  have registered (request : RequestId × Purpose) (member : request ∈ requests) :
      Placed request (mailbox.register token) := by
    refine (accounted.placed request member).mono (fun hears => ?_) (fun answered _ => answered)
      fun place _ => .inr place
    have issued : request.1 < mailbox.nextRequest := by
      rw [← List.mem_range, ← accounted.numbered]
      exact List.mem_map_of_mem member
    rw [listening_iff, Mailbox.register, List.map_append, List.mem_append] at hears
    refine (mailbox.listening_iff _).mpr (hears.resolve_right fun new => ?_)
    exact Nat.ne_of_lt issued (List.mem_singleton.mp new)
  have next := ((put (mailbox.register token) mailbox.nextRequest).poll_unserved fired?
    ⟨mailbox.nextRequest, token⟩).nextRequest
  rw [puts.nextRequest] at next
  refine ⟨?_, fun request member => poll_placed fired? _ ?_, poll_attended fired? _ ?_⟩
  · have counted : (mailbox.issue fired? token put).1.nextRequest = mailbox.nextRequest + 1 := next
    rw [counted, List.map_append, accounted.numbered, List.range_succ]
    rfl
  · rcases List.mem_append.mp member with earlier | new
    · exact puts.places _ _ request (registered request earlier)
    · exact List.mem_singleton.mp new ▸ puts.new _ _
  · intro id inLine
    rw [listening_iff, puts.pending, List.map_append, List.mem_append]
    rcases puts.lined _ _ id inLine with earlier | rfl
    · exact .inl ((mailbox.listening_iff id).mp (accounted.attended id earlier))
    · exact .inr (List.mem_singleton.mpr rfl)

/-- One operation keeps account of all requests, and of the one that it makes. -/
theorem Accounted.operate {world : World α} {requests : List (RequestId × Purpose)}
    (accounted : Accounted world.mailbox requests) (operation : Operation α) :
    Accounted (world.operate operation).1.mailbox
      (requests ++ (operation.request? (world.operate operation).2).toList) := by
  have same : Accounted world.mailbox (requests ++ []) := by
    rw [List.append_nil]
    exact accounted
  have pushed (value : α) (token : Option TokenId) :=
    accounted.issue world.signals.fired? token (puts_push value)
  unfold World.operate
  split
  · cases operation with
    | push value => exact pushed value none
    | tryPush value =>
        rw [World.perform_tryPush]
        split
        · exact same
        · exact pushed value none
    | pushWith value token => exact pushed value (some token)
    | take => exact accounted.issue world.signals.fired? none puts_take
    | takeWith token => exact accounted.issue world.signals.fired? (some token) puts_take
    | wait => exact accounted.issue world.signals.fired? none puts_wait
    | awaitToken token => exact accounted.issue world.signals.fired? (some token) puts_token
    | abandon id =>
        exact ⟨same.numbered, fun request member => forget_placed id (same.placed request member),
          forget_attended id same.attended⟩
    | close => exact ⟨same.numbered, same.placed, same.attended⟩
    | discard => exact ⟨same.numbered, same.placed, same.attended⟩
    | changeHandles change => exact ⟨same.numbered, same.placed, same.attended⟩
    | _ => exact same
  · rw [Operation.request?_unavailable]
    exact same

/-- All requests stay accounted for through any number of operations. -/
theorem Accounted.operateAll {world : World α} {requests : List (RequestId × Purpose)}
    (accounted : Accounted world.mailbox requests) (operations : List (Operation α)) :
    Accounted (world.operateAll operations).1.mailbox
      (requests ++ requestsOfOperations operations (world.operateAll operations).2) := by
  induction operations generalizing world requests with
  | nil =>
      rw [requestsOfOperations.eq_def]
      exact (List.append_nil requests).symm ▸ accounted
  | cons operation rest ih =>
      have final := ih (accounted.operate operation)
      rw [List.append_assoc] at final
      exact final

/-- A run keeps account of all requests that are made in it. -/
theorem Accounted.run {world : World α} {requests : List (RequestId × Purpose)}
    (accounted : Accounted world.mailbox requests) (steps : List (List (Operation α))) :
    Accounted (world.run steps).1.mailbox (requests ++ requestsOf steps (world.run steps).2) := by
  induction steps generalizing world requests with
  | nil => exact (List.append_nil requests).symm ▸ accounted
  | cons operations rest ih =>
      have settled := (accounted.operateAll operations).settle
        (world.operateAll operations).1.signals.fired?
      have final : Accounted ((world.step operations).1.run rest).1.mailbox _ := ih settled
      rw [List.append_assoc] at final
      exact final

/-! ## Mailboxes at rest -/

/-- The reason for which a request of a purpose is not answered: a push stands before the full
buffer of an open mailbox whose policy lets it wait, a take or a wait stands before the empty buffer
of an open mailbox, and a request that only a token can end needs no other reason. -/
def WaitsFor (actor : Actor α) (id : RequestId) : Purpose → Prop
  | .push => id ∈ actor.blocked.map Item.push ∧ actor.policy = .block ∧ actor.closed = false ∧
      actor.buffer.length = actor.capacity
  | .take => id ∈ actor.takers ∧ actor.buffer = [] ∧ actor.closed = false
  | .wait => id ∈ actor.waiters ∧ actor.buffer = [] ∧ actor.closed = false
  | .token => True

/-- Whoever stands before an actor at rest has a reason to wait. -/
theorem Actor.AtRest.waitsFor {actor : Actor α} (rest : actor.AtRest) {id : RequestId}
    {purpose : Purpose} (waiting : id ∈ actor.waiting purpose) : WaitsFor actor id purpose := by
  cases purpose with
  | push =>
      refine ⟨waiting, rest.full ?_⟩
      rintro none
      rw [Actor.waiting, none] at waiting
      cases waiting
  | take =>
      obtain ⟨empty, isOpen, -⟩ := rest.drained (.inl (List.ne_nil_of_mem waiting))
      exact ⟨waiting, empty, isOpen⟩
  | wait =>
      obtain ⟨empty, isOpen, -⟩ := rest.drained (.inr (List.ne_nil_of_mem waiting))
      exact ⟨waiting, empty, isOpen⟩
  | token => exact trivial

/-- A mailbox at rest, with the requests that have been made: nothing is left to serve, and every
pending request has a reason to wait. -/
structure Quiet (mailbox : Mailbox α) (requests : List (RequestId × Purpose)) : Prop where
  served : mailbox.Served
  rest : mailbox.actor.AtRest
  /-- Every request was made for one purpose. -/
  numbered : requests.map Prod.fst = List.range mailbox.nextRequest
  reasons : ∀ pending ∈ mailbox.pending, ∃ purpose,
    (pending.id, purpose) ∈ requests ∧ WaitsFor mailbox.actor pending.id purpose

namespace Served

/-- Nobody is in a queue of a mailbox that is served. -/
theorem queuedFor (served : mailbox.Served) (purpose : Purpose) :
    mailbox.queuedFor purpose = [] := by
  cases purpose with
  | push => exact congrArg (List.map Item.push) served.pushes
  | take => exact congrArg ReadQueue.seated served.takes
  | wait => exact congrArg ReadQueue.seated served.waits
  | token => rfl

theorem linedFor (served : mailbox.Served) (purpose : Purpose) :
    mailbox.linedFor purpose = [] := by
  cases purpose with
  | push => exact congrArg (List.map Item.push) served.overflow
  | take => exact congrArg ReadQueue.line served.takes
  | wait => exact congrArg ReadQueue.line served.waits
  | token => rfl

end Served

/-- A run that starts with nothing to serve leaves nothing to serve. -/
theorem World.run_served {world : World α} {requests : List (RequestId × Purpose)}
    (accounted : world.mailbox.Accounted requests) (served : world.mailbox.Served)
    (steps : List (List (Operation α))) : (world.run steps).1.mailbox.Served := by
  induction steps generalizing world requests with
  | nil => exact served
  | cons operations rest ih =>
      have operated := accounted.operateAll operations
      exact ih (operated.settle (world.operateAll operations).1.signals.fired?)
        (settle_served _ operated.attended)

/-- A pending request has been given its number. -/
theorem Books.pending_lt {history : History α} (books : Books mailbox history) {pending : Pending}
    (member : pending ∈ mailbox.pending) : pending.id < mailbox.nextRequest := by
  have known := books.requests pending.id
  have present : 0 < (mailbox.pending.map Pending.id).count pending.id :=
    List.count_pos_iff.mpr (List.mem_map_of_mem member)
  rw [← List.mem_range, ← List.count_pos_iff]
  omega

/-- A mailbox that has come to rest is quiet, with all requests accounted for. -/
theorem Accounted.quiet {requests : List (RequestId × Purpose)} {history : History α}
    (accounted : Accounted mailbox requests) (books : Books mailbox history)
    (seen : mailbox.answers = []) (served : mailbox.Served) (rest : mailbox.actor.AtRest) :
    Quiet mailbox requests := by
  refine ⟨served, rest, accounted.numbered, fun pending member => ?_⟩
  have issued := books.pending_lt member
  rw [← List.mem_range, ← accounted.numbered] at issued
  obtain ⟨⟨id, purpose⟩, made, same⟩ := List.mem_map.mp issued
  subst same
  refine ⟨purpose, made, ?_⟩
  rcases accounted.placed _ made (listening_of_mem member) with rfl | answered | place
  · exact trivial
  · rw [seen] at answered
    cases answered
  · rw [served.queuedFor, served.linedFor] at place
    exact rest.waitsFor place

/-- Every run of a mailbox leaves it quiet. -/
theorem World.quiet_run (capacity : Nat) (policy : Policy) (slots : Nat)
    (steps : List (List (Operation α))) :
    Quiet ((World.start capacity policy slots).run steps).1.mailbox
      (requestsOf steps ((World.start capacity policy slots).run steps).2) := by
  have start : (World.start capacity policy slots : World α).mailbox.Accounted [] :=
    ⟨rfl, fun _ member => absurd member List.not_mem_nil,
      fun _ inLine => inLine.elim (absurd · List.not_mem_nil) (absurd · List.not_mem_nil)⟩
  have fresh : (World.start capacity policy slots : World α).mailbox.Served :=
    ⟨rfl, rfl, rfl, rfl, rfl, rfl⟩
  have opened : Books (World.start capacity policy slots : World α).mailbox History.empty :=
    Books.fresh capacity policy slots
  obtain ⟨books, seen⟩ := opened.run rfl steps
  refine (start.run steps).quiet books seen (World.run_served start fresh steps) ?_
  have told := congrArg Prod.fst ((World.start capacity policy slots).run_told steps)
  dsimp only at told
  rw [← told]
  exact Actor.run_atRest _ (Actor.new_atRest capacity policy) _

/-- Nobody waits in vain: between any two events an actor is at rest, whoever gives up meanwhile,
and after every run of a mailbox nothing is left to serve and every pending request has a reason to
wait. -/
theorem run_quiet (capacity : Nat) (policy : Policy) (slots : Nat) :
    (∀ events : List ((RequestId → Bool) × Event α),
      ((Actor.new capacity policy).run events).1.AtRest) ∧
    ∀ steps : List (List (Operation α)),
      let final := (World.start capacity policy slots).run steps
      Quiet final.1.mailbox (requestsOf steps final.2) :=
  ⟨fun events => Actor.run_atRest _ (Actor.new_atRest capacity policy) events,
    fun steps => World.quiet_run capacity policy slots steps⟩

end CommandScript.Mailbox
