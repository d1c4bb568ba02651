import CommandScript.Proofs.Mailbox.Likeness

/-!
# The number of slots does not show

A push that finds its queue full is set aside, and a take that does stands in line for a slot. Where
pushes wait for room none of this shows: whatever clients do, short of a push that must not be set
aside and of waiting for word of an item, mailboxes with any numbers of slots end the same requests
in the same way, step by step, and publish the same numbers
(`CommandScript.Mailbox.run_slots`).
-/

namespace CommandScript.Mailbox

variable {α : Type}

open History

/-! ## What is observed -/

/-- The operation neither insists on a slot nor asks for word of an item. -/
def Operation.isIndifferent : Operation α → Bool
  | .tryPush _ => false
  | .wait => false
  | _ => true

namespace World

/-- What is observed of a step: what each operation answered, which requests ended while the mailbox
came to rest, and the numbers that it publishes afterwards. -/
structure Observation (α : Type) where
  replies : List (Reply α)
  done : List (RequestId × Outcome α)
  depth : Nat
  discarded : Nat

/-- What is observed of steps one after the other. -/
def observe (world : World α) : List (List (Operation α)) → List (Observation α)
  | [] => []
  | operations :: rest =>
    let (after, report) := world.step operations
    ⟨report.replies, report.settled.done, after.mailbox.depth, after.mailbox.discarded⟩ ::
      after.observe rest

end World

/-! ## Requests that are issued -/

variable {left right mailbox : Mailbox α}

/-- A request that has not been issued stands nowhere. -/
theorem Books.next_absent {history : History α} (books : Books mailbox history) :
    mailbox.nextRequest ∉ mailbox.standing := by
  have place := books.places mailbox.nextRequest
  intro member
  have here := List.count_pos_iff.mpr member
  have issued := List.count_pos_iff.mp (Nat.lt_of_lt_of_le here place)
  exact Nat.lt_irrefl _ (List.mem_range.mp issued)

/-- A new request leaves it open who else listens. -/
theorem register_listening (mailbox : Mailbox α) (token : Option TokenId) {request : RequestId}
    (other : request ≠ mailbox.nextRequest) :
    (mailbox.register token).listening request = mailbox.listening request := by
  rw [Bool.eq_iff_iff, listening_iff, listening_iff, register, List.map_append, List.mem_append]
  refine or_iff_left fun new => other ?_
  exact List.mem_singleton.mp new

/-- Two actors are alike for all who agree about the requests that they hold. -/
theorem Actor.Alike.congr {listening other : RequestId → Bool} {left right : Actor α}
    (alike : Actor.Alike listening left right)
    (same : ∀ request, request ∈ left.held ∨ request ∈ right.held →
      listening request = other request) : Actor.Alike other left right := by
  cases alike with
  | shut first second firstShut secondShut remains =>
      exact .shut first second firstShut secondShut remains
  | lasting first second agree =>
      have earlier := fun request member => same request (.inl member)
      have later := fun request member => same request (.inr member)
      refine .lasting first second ⟨agree.capacity, agree.buffer, ?_, ?_⟩
      · rw [← live_blocked_congr earlier, ← live_blocked_congr later, agree.blocked]
      · rw [← filter_takers_congr earlier, ← filter_takers_congr later, agree.takers]

/-- A new request leaves two mailboxes alike. -/
theorem Alike.register (alike : Alike left right) {history other : History α}
    (first : Books left history) (second : Books right other) (token : Option TokenId) :
    Alike (left.register token) (right.register token) := by
  have listens := listening_congr alike.pending
  have kept {mailbox : Mailbox α} {history : History α} (books : Books mailbox history)
      {request : RequestId} (stands : request ∈ mailbox.standing) :
      (mailbox.register token).listening request = mailbox.listening request :=
    register_listening mailbox token fun same => books.next_absent (same ▸ stands)
  have called {mailbox : Mailbox α} {history : History α} (books : Books mailbox history) :
      (mailbox.callers []).filter (mailbox.register token).listening =
        (mailbox.callers []).filter mailbox.listening := by
    refine List.filter_congr fun request member => kept books ?_
    have calls : request ∈ mailbox.takes.requests := member
    simp only [Mailbox.standing, List.mem_append]
    exact .inl (.inl (.inr calls))
  refine ⟨?_, congrArg (· + 1) alike.nextRequest, alike.control, alike.handles, alike.attending,
    alike.items, ?_, ?_⟩
  · rw [Mailbox.register, Mailbox.register, alike.pending, alike.nextRequest]
  · exact (called first).trans (alike.takes.trans (called second).symm)
  · refine alike.actors.congr fun request member => ?_
    rcases member with held | held
    · exact (kept first (List.mem_append_right _ held)).symm
    · rw [register_listening left token, listens]
      intro same
      refine second.next_absent (List.mem_append_right _ ?_)
      rw [← alike.nextRequest, ← same]
      exact held

/-- Items, takes and control requests have been put behind all others. -/
structure Joins (items : List (Item α)) (takes : List RequestId) (controls : List Control)
    (before after : Mailbox α) : Prop where
  actor : after.actor = before.actor
  pending : after.pending = before.pending
  nextRequest : after.nextRequest = before.nextRequest
  control : after.control = before.control ++ controls
  handles : after.handles = before.handles
  attending : after.attending = before.attending
  arrivals : after.arrivals [] = before.arrivals [] ++ items
  callers : after.callers [] = before.callers [] ++ takes

/-- The same items, takes and control requests leave two mailboxes alike. -/
theorem Alike.join (alike : Alike left right) {leftAfter rightAfter : Mailbox α}
    {items : List (Item α)} {takes : List RequestId} {controls : List Control}
    (first : Joins items takes controls left leftAfter)
    (second : Joins items takes controls right rightAfter) : Alike leftAfter rightAfter where
  pending := by rw [first.pending, second.pending, alike.pending]
  nextRequest := by rw [first.nextRequest, second.nextRequest, alike.nextRequest]
  control := by rw [first.control, second.control, alike.control]
  handles := by rw [first.handles, second.handles, alike.handles]
  attending := by rw [first.attending, second.attending, alike.attending]
  items := by rw [first.arrivals, second.arrivals, alike.items]
  takes := by
    rw [first.callers, second.callers, List.filter_append, List.filter_append,
      listening_congr first.pending, listening_congr second.pending, alike.takes,
      listening_congr alike.pending]
  actors := by
    rw [first.actor, second.actor, listening_congr first.pending]
    exact alike.actors

/-- A push joins the mailbox behind all others. -/
theorem putPush_joins (value : α) {mailbox : Mailbox α} (request : RequestId)
    (crowded : mailbox.Crowded) (running : mailbox.actor.ended = false) :
    Joins [⟨request, value⟩] [] [] mailbox (putPush value mailbox request) where
  actor := (putsLast_push value).actor mailbox request
  pending := (puts_push value).pending mailbox request
  nextRequest := (puts_push value).nextRequest mailbox request
  control := (putPush_sameActor value mailbox request).control.trans (List.append_nil _).symm
  handles := (putPush_sameActor value mailbox request).handles
  attending := (putPush_sameActor value mailbox request).attending
  arrivals := by
    rw [(putsLast_push value).arrivals mailbox request [] crowded, running,
      if_neg Bool.false_ne_true]
    rfl
  callers := by
    unfold putPush
    rw [List.append_nil]
    split
    · rfl
    · split <;> rfl

/-- A take joins the mailbox behind all others. -/
theorem putTake_joins (mailbox : Mailbox α) (request : RequestId) :
    Joins [] [request] [] mailbox (putTake mailbox request) where
  actor := rfl
  pending := rfl
  nextRequest := rfl
  control := (List.append_nil _).symm
  handles := rfl
  attending := rfl
  arrivals := (List.append_nil _).symm
  callers := by
    simp only [callers, putTake, ReadQueue.join, ReadQueue.requests, List.append_assoc]

/-- A further look at the request that has just been issued leaves two mailboxes alike. -/
theorem Alike.poll (alike : Alike left right) (first : left.Unanswered) (second : right.Unanswered)
    (fired? : TokenId → Option Failure) (pending : Pending) :
    Alike (left.poll fired? pending).1 (right.poll fired? pending).1 ∧
      (left.poll fired? pending).2 = (right.poll fired? pending).2 := by
  have looked := (alike.pollEach first second fired? [pending]).1
  rw [pollEach_cons, pollEach_cons] at looked
  refine ⟨looked, ?_⟩
  rw [first.poll, second.poll]
  split <;> rfl

/-! ## Requests to an actor that has ended -/

/-- The mailbox with a number given away. -/
def skip (mailbox : Mailbox α) : Mailbox α :=
  { mailbox with nextRequest := mailbox.nextRequest + 1 }

/-- Mailboxes stay alike when both give a number away. -/
theorem Alike.skip (alike : Alike left right) : Alike left.skip right.skip :=
  { alike with nextRequest := congrArg (· + 1) alike.nextRequest }

/-- A new request that is refused leaves nothing behind. -/
theorem forget_register {history : History α} (books : Books mailbox history)
    (unanswered : mailbox.Unanswered) (ended : mailbox.actor.ended = true)
    (token : Option TokenId) (answer : Answer α) :
    ((mailbox.register token).record mailbox.nextRequest answer).forget mailbox.nextRequest =
      mailbox.skip := by
  have pending : (mailbox.pending ++ [(⟨mailbox.nextRequest, token⟩ : Pending)]).filter
      (fun pending => pending.id ≠ mailbox.nextRequest) = mailbox.pending := by
    rw [List.filter_append]
    have none : [(⟨mailbox.nextRequest, token⟩ : Pending)].filter
        (fun pending => pending.id ≠ mailbox.nextRequest) = [] := by simp
    rw [none, List.append_nil, List.filter_eq_self]
    exact fun pending member => decide_eq_true (Nat.ne_of_lt (books.pending_lt member))
  have takes : mailbox.takes.leave mailbox.nextRequest = mailbox.takes := by
    rw [ReadQueue.leave, unanswered.turned ended, List.filter_nil, ← unanswered.turned ended]
  have waits : mailbox.waits.leave mailbox.nextRequest = mailbox.waits := by
    rw [unanswered.waits]
    rfl
  have answers : (mailbox.answers ++ [(mailbox.nextRequest, answer)]).filter
      (fun entry => entry.1 ≠ mailbox.nextRequest) = mailbox.answers := by
    rw [unanswered.seen]
    simp
  simp only [Mailbox.forget, record, register, skip, pending, takes, waits, answers]

/-- A request that is refused as soon as it is looked at. -/
theorem poll_refused {history : History α} (books : Books mailbox history)
    (unanswered : mailbox.Unanswered) (ended : mailbox.actor.ended = true)
    (fired? : TokenId → Option Failure) (token : Option TokenId) {put : Mailbox α}
    (entered : put.enter mailbox.nextRequest =
      (mailbox.register token).record mailbox.nextRequest .notRunning) :
    put.poll fired? ⟨mailbox.nextRequest, token⟩ =
      (mailbox.skip, some (.error .notRunning)) := by
  have found : (put.enter mailbox.nextRequest).answers.lookup mailbox.nextRequest =
      some .notRunning := by
    rw [entered, record, show (mailbox.register token).answers = [] from unanswered.seen]
    simp
  rcases poll_cases fired? put ⟨mailbox.nextRequest, token⟩ with
    ⟨answer, seen, polled⟩ | ⟨failure, unseen, -, -⟩ | ⟨unseen, -, -⟩
  · cases found.symm.trans seen
    rw [polled, entered, forget_register books unanswered ended]
    rfl
  · cases found.symm.trans unseen
  · cases found.symm.trans unseen

/-- An actor that has ended refuses a push at once. -/
theorem push_of_ended {history : History α} (books : Books mailbox history)
    (unanswered : mailbox.Unanswered) (ended : mailbox.actor.ended = true)
    (fired? : TokenId → Option Failure) (value : α) (token : Option TokenId) :
    mailbox.push fired? value token =
      (mailbox.skip, ⟨mailbox.nextRequest, some (.error .notRunning)⟩) := by
  have entered : (putPush value (mailbox.register token) mailbox.nextRequest).enter
      mailbox.nextRequest = (mailbox.register token).record mailbox.nextRequest .notRunning := by
    have recorded : putPush value (mailbox.register token) mailbox.nextRequest =
        (mailbox.register token).record mailbox.nextRequest .notRunning := if_pos ended
    have takes : mailbox.takes.enter mailbox.slots mailbox.actor.ended mailbox.nextRequest =
        (mailbox.takes, false) := ReadQueue.enter_of_nil _ (unanswered.turned ended)
    have waits : mailbox.waits.enter mailbox.slots mailbox.actor.ended mailbox.nextRequest =
        (mailbox.waits, false) :=
      ReadQueue.enter_of_nil _ (congrArg ReadQueue.line unanswered.waits)
    rw [recorded]
    simp only [Mailbox.enter, record, register, takes, waits]
    rfl
  have polled := poll_refused books unanswered ended fired? token entered
  unfold push issue
  exact congrArg (fun made : Mailbox α × Option (Outcome α) =>
    (made.1, (⟨mailbox.nextRequest, made.2⟩ : Issue α))) polled

/-- An actor that has ended refuses a take at once. -/
theorem take_of_ended {history : History α} (books : Books mailbox history)
    (unanswered : mailbox.Unanswered) (ended : mailbox.actor.ended = true)
    (fired? : TokenId → Option Failure) (token : Option TokenId) :
    mailbox.take fired? token =
      (mailbox.skip, ⟨mailbox.nextRequest, some (.error .notRunning)⟩) := by
  have entered : (putTake (mailbox.register token) mailbox.nextRequest).enter
      mailbox.nextRequest = (mailbox.register token).record mailbox.nextRequest .notRunning := by
    have line := unanswered.turned ended
    have takes : (mailbox.takes.join mailbox.nextRequest).enter mailbox.slots mailbox.actor.ended
        mailbox.nextRequest = (mailbox.takes, true) := by
      simp only [ReadQueue.enter, ReadQueue.join, line, ended, List.nil_append, ne_eq,
        not_true_eq_false, if_false, if_true]
      rw [← line]
    have waits : mailbox.waits.enter mailbox.slots mailbox.actor.ended mailbox.nextRequest =
        (mailbox.waits, false) :=
      ReadQueue.enter_of_nil _ (congrArg ReadQueue.line unanswered.waits)
    simp only [Mailbox.enter, putTake, register, takes, waits]
    rfl
  have polled := poll_refused books unanswered ended fired? token entered
  unfold take issue
  exact congrArg (fun made : Mailbox α × Option (Outcome α) =>
    (made.1, (⟨mailbox.nextRequest, made.2⟩ : Issue α))) polled

/-! ## Operations -/

/-- A number that is given away leaves no answer unseen. -/
theorem Unanswered.skip (unanswered : mailbox.Unanswered) : mailbox.skip.Unanswered :=
  ⟨unanswered.seen, unanswered.waits, unanswered.turned⟩

theorem Unanswered.register (unanswered : mailbox.Unanswered) (token : Option TokenId) :
    (mailbox.register token).Unanswered :=
  ⟨unanswered.seen, unanswered.waits, unanswered.turned⟩

theorem Unanswered.putPush (unanswered : mailbox.Unanswered) (running : mailbox.actor.ended = false)
    (value : α) (request : RequestId) : (putPush value mailbox request).Unanswered := by
  unfold Mailbox.putPush
  rw [running, if_neg Bool.false_ne_true]
  split <;> exact ⟨unanswered.seen, unanswered.waits, unanswered.turned⟩

theorem Unanswered.putTake (unanswered : mailbox.Unanswered) (running : mailbox.actor.ended = false)
    (request : RequestId) : (putTake mailbox request).Unanswered :=
  ⟨unanswered.seen, unanswered.waits, fun ended => by cases running.symm.trans ended⟩

namespace Actor.Alike

variable {listening : RequestId → Bool} {left right : Actor α}

theorem ended (alike : Actor.Alike listening left right) : left.ended = right.ended := by
  cases alike with
  | shut first second firstShut secondShut remains =>
      unfold Actor.remains at remains
      cases ended : left.ended <;> cases ended' : right.ended <;> rw [ended, ended'] at remains <;>
        first
        | rfl
        | cases remains
  | lasting first second agree => rw [first.running, second.running]

theorem depth (alike : Actor.Alike listening left right) : left.depth = right.depth := by
  cases alike with
  | shut first second firstShut secondShut remains =>
      rw [first.published, second.published, ← first.items_remains, ← second.items_remains, remains]
  | lasting first second agree => rw [first.rest.published, second.rest.published, agree.buffer]

end Actor.Alike

namespace Plain

variable (fired? : TokenId → Option Failure)

/-- A new push leaves no answer unseen. -/
theorem push_unanswered (plain : Plain mailbox) (value : α) (token : Option TokenId) :
    (mailbox.push fired? value token).1.Unanswered := by
  obtain ⟨history, books⟩ := plain.books
  cases ended : mailbox.actor.ended with
  | true =>
      rw [push_of_ended books plain.unanswered ended]
      exact plain.unanswered.skip
  | false =>
      exact ((plain.unanswered.register token).putPush ended value _).poll_unanswered fired? _

/-- A new take leaves no answer unseen. -/
theorem take_unanswered (plain : Plain mailbox) (token : Option TokenId) :
    (mailbox.take fired? token).1.Unanswered := by
  obtain ⟨history, books⟩ := plain.books
  cases ended : mailbox.actor.ended with
  | true =>
      rw [take_of_ended books plain.unanswered ended]
      exact plain.unanswered.skip
  | false => exact ((plain.unanswered.register token).putTake ended _).poll_unanswered fired? _

/-- A plain mailbox stays plain through an operation that does not depend on slots. -/
theorem operate {world : World α} (plain : Plain world.mailbox) {operation : Operation α}
    (indifferent : operation.isIndifferent = true) :
    Plain (world.operate operation).1.mailbox := by
  obtain ⟨history, books⟩ := plain.books
  obtain ⟨requests, accounted⟩ := plain.accounted
  obtain ⟨told, pushed, inLine⟩ := plain.inLine
  obtain ⟨inLine, crowded⟩ := inLine.operate plain.crowded operation
  have same := (world.operate_operated operation).actor
  have unanswered : (world.operate operation).1.mailbox.Unanswered := by
    obtain ⟨seen, waits, turned⟩ := plain.unanswered
    unfold World.operate
    split
    · cases operation with
      | push value => exact plain.push_unanswered world.signals.fired? value none
      | pushWith value token =>
          exact plain.push_unanswered world.signals.fired? value (some token)
      | take => exact plain.take_unanswered world.signals.fired? none
      | takeWith token => exact plain.take_unanswered world.signals.fired? (some token)
      | awaitToken token => exact (plain.unanswered.register _).poll_unanswered _ _
      | abandon request => exact plain.unanswered.forget request
      | close => exact ⟨seen, waits, turned⟩
      | discard => exact ⟨seen, waits, turned⟩
      | changeHandles change => exact ⟨seen, waits, turned⟩
      | tryPush value => cases indifferent
      | wait => cases indifferent
      | _ => exact plain.unanswered
    · exact plain.unanswered
  exact
    { books := ⟨_, (books.operate plain.unanswered.seen operation).1⟩
      accounted := ⟨_, accounted.operate operation⟩
      inLine := ⟨told, _, inLine⟩
      crowded := crowded
      unanswered := unanswered
      policy := same ▸ plain.policy
      undiscarded := by
        rw [discarded, same]
        exact plain.undiscarded }

end Plain

/-- A new request is put into its place and polled. -/
theorem issue_eq (fired? : TokenId → Option Failure) (mailbox : Mailbox α) (token : Option TokenId)
    (put : Mailbox α → RequestId → Mailbox α) :
    mailbox.issue fired? token put =
      (((put (mailbox.register token) mailbox.nextRequest).poll fired?
          ⟨mailbox.nextRequest, token⟩).1,
        ⟨mailbox.nextRequest, ((put (mailbox.register token) mailbox.nextRequest).poll fired?
          ⟨mailbox.nextRequest, token⟩).2⟩) :=
  rfl

/-- A request that is put behind all others leaves two mailboxes alike, and its client is told the
same. -/
theorem Alike.issue (alike : Alike left right) (first : Plain left) (second : Plain right)
    (fired? : TokenId → Option Failure) (token : Option TokenId)
    {put : Mailbox α → RequestId → Mailbox α} (items : List (Item α)) (takes : List RequestId)
    (joins : ∀ mailbox : Mailbox α, Plain mailbox → mailbox.actor.ended = left.actor.ended →
      Joins items takes [] (mailbox.register token)
          (put (mailbox.register token) left.nextRequest) ∧
        (put (mailbox.register token) left.nextRequest).Unanswered) :
    Alike (left.issue fired? token put).1 (right.issue fired? token put).1 ∧
      (left.issue fired? token put).2 = (right.issue fired? token put).2 := by
  obtain ⟨history, books⟩ := first.books
  obtain ⟨other, books'⟩ := second.books
  obtain ⟨joined, unanswered⟩ := joins left first rfl
  obtain ⟨joined', unanswered'⟩ := joins right second alike.actors.ended.symm
  obtain ⟨final, outcome⟩ := ((alike.register books books' token).join joined joined').poll
    unanswered unanswered' fired? ⟨left.nextRequest, token⟩
  rw [issue_eq, issue_eq, ← alike.nextRequest]
  exact ⟨final, congrArg (Issue.mk left.nextRequest) outcome⟩

/-- Mailboxes stay alike through a push and reply alike. -/
theorem Alike.push (alike : Alike left right) (first : Plain left) (second : Plain right)
    (fired? : TokenId → Option Failure) (value : α) (token : Option TokenId) :
    Alike (left.push fired? value token).1 (right.push fired? value token).1 ∧
      (left.push fired? value token).2 = (right.push fired? value token).2 := by
  cases ended : left.actor.ended with
  | true =>
      obtain ⟨history, books⟩ := first.books
      obtain ⟨other, books'⟩ := second.books
      rw [push_of_ended books first.unanswered ended,
        push_of_ended books' second.unanswered (alike.actors.ended ▸ ended), alike.nextRequest]
      exact ⟨alike.skip, rfl⟩
  | false =>
      refine alike.issue first second fired? token [⟨left.nextRequest, value⟩] []
        fun mailbox plain same => ?_
      have running := same.trans ended
      exact ⟨putPush_joins value _ plain.crowded running,
        (plain.unanswered.register token).putPush running value _⟩

/-- Mailboxes stay alike through a take and reply alike. -/
theorem Alike.take (alike : Alike left right) (first : Plain left) (second : Plain right)
    (fired? : TokenId → Option Failure) (token : Option TokenId) :
    Alike (left.take fired? token).1 (right.take fired? token).1 ∧
      (left.take fired? token).2 = (right.take fired? token).2 := by
  cases ended : left.actor.ended with
  | true =>
      obtain ⟨history, books⟩ := first.books
      obtain ⟨other, books'⟩ := second.books
      rw [take_of_ended books first.unanswered ended,
        take_of_ended books' second.unanswered (alike.actors.ended ▸ ended), alike.nextRequest]
      exact ⟨alike.skip, rfl⟩
  | false =>
      refine alike.issue first second fired? token [] [left.nextRequest]
        fun mailbox plain same => ?_
      exact ⟨putTake_joins _ _,
        (plain.unanswered.register token).putTake (same.trans ended) _⟩

/-- Mailboxes stay alike when somebody waits for a token. -/
theorem Alike.awaitToken (alike : Alike left right) (first : Plain left) (second : Plain right)
    (fired? : TokenId → Option Failure) (token : TokenId) :
    Alike (left.awaitToken fired? token).1 (right.awaitToken fired? token).1 ∧
      (left.awaitToken fired? token).2 = (right.awaitToken fired? token).2 := by
  exact alike.issue first second fired? (some token) [] [] fun mailbox plain _ =>
    ⟨⟨rfl, rfl, rfl, (List.append_nil _).symm, rfl, rfl, (List.append_nil _).symm,
      (List.append_nil _).symm⟩, plain.unanswered.register _⟩

/-- A control request to both of two mailboxes leaves them alike. -/
theorem Alike.ask (alike : Alike left right) (control : Control) :
    Alike { left with control := left.control ++ [control] }
      { right with control := right.control ++ [control] } :=
  have joins (mailbox : Mailbox α) : Joins [] [] [control] mailbox
      { mailbox with control := mailbox.control ++ [control] } :=
    ⟨rfl, rfl, rfl, rfl, rfl, rfl, (List.append_nil _).symm, (List.append_nil _).symm⟩
  alike.join (joins left) (joins right)

/-- A handle of both of two mailboxes that is made or dropped leaves them alike. -/
theorem Alike.changeHandles (alike : Alike left right) (change : HandleChange) :
    Alike (left.changeHandles change) (right.changeHandles change) :=
  { alike with handles := congrArg (Handles.change · change) alike.handles }

/-- A client that gives up leaves two mailboxes alike. -/
theorem Alike.forget (alike : Alike left right) (request : RequestId) :
    Alike (left.forget request) (right.forget request) := by
  have pending : (left.forget request).pending = (right.forget request).pending :=
    congrArg (List.filter _) alike.pending
  have fewer (other : RequestId) (hears : (left.forget request).listening other = true) :
      left.listening other = true ∧ other ≠ request :=
    (forget_listening_iff left request other).mp hears
  have left' (mailbox : Mailbox α) : ((mailbox.forget request).callers []).filter
      (left.forget request).listening =
        (mailbox.callers []).filter (left.forget request).listening := by
    change (mailbox.takes.seated ++ mailbox.takes.line.filter _).filter _ =
      (mailbox.takes.seated ++ mailbox.takes.line).filter _
    rw [List.filter_append, List.filter_append, List.filter_filter]
    congr 1
    refine List.filter_congr fun other _ => ?_
    cases hears : (left.forget request).listening other with
    | true => rw [decide_eq_true (fewer other hears).2, Bool.true_and]
    | false => rw [Bool.false_and]
  refine ⟨pending, alike.nextRequest, alike.control, alike.handles, alike.attending, alike.items,
    ?_, alike.actors.mono fun other hears => (fewer other hears).1⟩
  rw [← listening_congr pending, left', left']
  exact alike.takes_of_fewer fun other hears => (fewer other hears).1

namespace World

/-- Two worlds have the same signals and mailboxes that are alike. -/
structure Alike (left right : World α) : Prop where
  signals : left.signals = right.signals
  mailboxes : Mailbox.Alike left.mailbox right.mailbox
  first : Plain left.mailbox
  second : Plain right.mailbox

variable {left right : World α}

/-- One operation leaves two worlds alike and answers the same. -/
theorem Alike.operate (alike : Alike left right) {operation : Operation α}
    (indifferent : operation.isIndifferent = true) :
    Alike (left.operate operation).1 (right.operate operation).1 ∧
      (left.operate operation).2 = (right.operate operation).2 := by
  have first := alike.first.operate indifferent
  have second := alike.second.operate indifferent
  have signals := alike.signals
  obtain ⟨leftSignals, leftMailbox⟩ := left
  obtain ⟨rightSignals, rightMailbox⟩ := right
  dsimp only at signals
  subst signals
  have mailboxes := alike.mailboxes
  have plain := alike.first
  have plain' := alike.second
  by_cases available : operation.isAvailable leftMailbox.handles = true
  · have here : World.operate ⟨leftSignals, leftMailbox⟩ operation =
        World.perform ⟨leftSignals, leftMailbox⟩ operation := if_pos available
    have there : World.operate ⟨leftSignals, rightMailbox⟩ operation =
        World.perform ⟨leftSignals, rightMailbox⟩ operation :=
      if_pos (mailboxes.handles ▸ available)
    rw [here] at first ⊢
    rw [there] at second ⊢
    have issued {made made' : Mailbox α × Issue α}
        (same : Mailbox.Alike made.1 made'.1 ∧ made.2 = made'.2) :
        Mailbox.Alike made.1 made'.1 ∧ Reply.issued made.2 = Reply.issued made'.2 :=
      ⟨same.1, congrArg Reply.issued same.2⟩
    cases operation with
    | push value =>
        obtain ⟨same, told⟩ := issued (mailboxes.push plain plain' leftSignals.fired? value none)
        exact ⟨⟨rfl, same, first, second⟩, told⟩
    | pushWith value token =>
        obtain ⟨same, told⟩ :=
          issued (mailboxes.push plain plain' leftSignals.fired? value (some token))
        exact ⟨⟨rfl, same, first, second⟩, told⟩
    | take =>
        obtain ⟨same, told⟩ := issued (mailboxes.take plain plain' leftSignals.fired? none)
        exact ⟨⟨rfl, same, first, second⟩, told⟩
    | takeWith token =>
        obtain ⟨same, told⟩ := issued (mailboxes.take plain plain' leftSignals.fired? (some token))
        exact ⟨⟨rfl, same, first, second⟩, told⟩
    | awaitToken token =>
        obtain ⟨same, told⟩ := issued (mailboxes.awaitToken plain plain' leftSignals.fired? token)
        exact ⟨⟨rfl, same, first, second⟩, told⟩
    | abandon request =>
        refine ⟨⟨rfl, mailboxes.forget request, first, second⟩, ?_⟩
        exact congrArg (fun listening => Reply.abandoned (listening request))
          (listening_congr mailboxes.pending)
    | close => exact ⟨⟨rfl, mailboxes.ask .close, first, second⟩, rfl⟩
    | discard => exact ⟨⟨rfl, mailboxes.ask .discard, first, second⟩, rfl⟩
    | changeHandles change => exact ⟨⟨rfl, mailboxes.changeHandles change, first, second⟩, rfl⟩
    | tryPush value => cases indifferent
    | wait => cases indifferent
    | lookAtMailbox =>
        refine ⟨⟨rfl, mailboxes, first, second⟩, ?_⟩
        exact congrArg₂ Reply.counts mailboxes.actors.depth
          (plain.undiscarded.trans plain'.undiscarded.symm)
    | _ => exact ⟨⟨rfl, mailboxes, first, second⟩, rfl⟩
  · have here : World.operate ⟨leftSignals, leftMailbox⟩ operation =
        (⟨leftSignals, leftMailbox⟩, .unavailable) := if_neg available
    have there : World.operate ⟨leftSignals, rightMailbox⟩ operation =
        (⟨leftSignals, rightMailbox⟩, .unavailable) := if_neg (mailboxes.handles ▸ available)
    rw [here, there]
    exact ⟨⟨rfl, mailboxes, plain, plain'⟩, rfl⟩

/-- Worlds stay alike through any number of operations that do not depend on slots. -/
theorem Alike.operateAll (alike : Alike left right) {operations : List (Operation α)}
    (indifferent : ∀ operation ∈ operations, operation.isIndifferent = true) :
    Alike (left.operateAll operations).1 (right.operateAll operations).1 ∧
      (left.operateAll operations).2 = (right.operateAll operations).2 := by
  induction operations generalizing left right with
  | nil => exact ⟨alike, rfl⟩
  | cons operation rest ih =>
      obtain ⟨operated, reply⟩ := alike.operate (indifferent operation List.mem_cons_self)
      obtain ⟨final, replies⟩ := ih operated
        fun other member => indifferent other (List.mem_cons_of_mem _ member)
      exact ⟨final, congrArg₂ List.cons reply replies⟩

/-- A step leaves two worlds alike and tells the same. -/
theorem Alike.step (alike : Alike left right) {operations : List (Operation α)}
    (indifferent : ∀ operation ∈ operations, operation.isIndifferent = true) :
    Alike (left.step operations).1 (right.step operations).1 ∧
      (left.step operations).2.replies = (right.step operations).2.replies ∧
        (left.step operations).2.settled.done = (right.step operations).2.settled.done := by
  obtain ⟨operated, replies⟩ := alike.operateAll indifferent
  obtain ⟨settled, done⟩ := operated.mailboxes.settle operated.first operated.second
    (left.operateAll operations).1.signals.fired?
  have rested : (right.operateAll operations).1.mailbox.settle
      (right.operateAll operations).1.signals.fired? =
        (right.operateAll operations).1.mailbox.settle
          (left.operateAll operations).1.signals.fired? := by rw [operated.signals]
  rw [← rested] at settled done
  exact ⟨⟨operated.signals, settled, operated.first.settle _, operated.second.settle _⟩, replies,
    done⟩

/-- Worlds that are alike look alike at every step. -/
theorem Alike.observe (alike : Alike left right) {steps : List (List (Operation α))}
    (indifferent : ∀ operations ∈ steps, ∀ operation ∈ operations,
      operation.isIndifferent = true) : left.observe steps = right.observe steps := by
  induction steps generalizing left right with
  | nil => rfl
  | cons operations rest ih =>
      obtain ⟨stepped, replies, done⟩ := alike.step (indifferent operations List.mem_cons_self)
      have later := ih stepped fun other member => indifferent other (List.mem_cons_of_mem _ member)
      have depth := stepped.mailboxes.actors.depth
      have discarded := stepped.first.undiscarded.trans stepped.second.undiscarded.symm
      simp only [World.observe, Mailbox.depth, depth, discarded, replies, done, later]

/-- Worlds start alike whatever the size of their queues. -/
theorem Alike.start (capacity slots others : Nat) :
    Alike (World.start capacity .block slots : World α) (World.start capacity .block others) := by
  have plain (slots : Nat) : Plain (World.start capacity .block slots : World α).mailbox :=
    { books := ⟨_, Books.fresh capacity .block slots⟩
      accounted := ⟨[], rfl, fun _ member => absurd member List.not_mem_nil,
        fun _ inLine => inLine.elim (absurd · List.not_mem_nil) (absurd · List.not_mem_nil)⟩
      inLine := ⟨[], [], List.prefix_rfl, fun _ => rfl, .nil,
        fun _ member => absurd member List.not_mem_nil, .nil,
        fun _ member => absurd member List.not_mem_nil⟩
      crowded := .inl rfl
      unanswered := ⟨rfl, rfl, fun _ => rfl⟩
      policy := rfl
      undiscarded := rfl }
  have lasting : (Actor.new capacity .block : Actor α).Lasting :=
    ⟨Actor.new_atRest capacity .block, rfl, rfl, rfl, rfl⟩
  have actors (listening : RequestId → Bool) :
      Actor.Alike listening (Actor.new capacity .block : Actor α) (Actor.new capacity .block) :=
    .lasting lasting lasting ⟨rfl, rfl, rfl, rfl⟩
  exact ⟨rfl, ⟨rfl, rfl, rfl, rfl, rfl, rfl, rfl, actors _⟩, plain slots, plain others⟩

end World

/-- The number of slots does not show: whatever clients do with a mailbox whose pushes wait for
room, as long as they neither insist on a slot nor ask for word of an item, each step answers the
same and ends the same requests in the same way, and the mailbox publishes the same numbers, however
many requests its queues hold. -/
theorem run_slots (capacity slots others : Nat) (steps : List (List (Operation α)))
    (indifferent : ∀ operations ∈ steps, ∀ operation ∈ operations,
      operation.isIndifferent = true) :
    (World.start capacity .block slots).observe steps =
      (World.start capacity .block others).observe steps :=
  (World.Alike.start capacity slots others).observe indifferent

/-- Through queues of one slot and of three go two takes, and three pushes of which the first is
given up; then the mailbox is closed. -/
theorem run_slots_close :
    (World.start 1 .block 1).observe
        [[.take, .push 'a', .abandon 1, .push 'b', .take], [.push 'c', .close], [.take]] =
      (World.start 1 .block 3).observe
        [[.take, .push 'a', .abandon 1, .push 'b', .take], [.push 'c', .close], [.take]] :=
  run_slots 1 1 3 [[.take, .push 'a', .abandon 1, .push 'b', .take], [.push 'c', .close], [.take]]
    (by decide)

end CommandScript.Mailbox
