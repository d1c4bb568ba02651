import CommandScript.Proofs.Mailbox.Confluence
import CommandScript.Proofs.Mailbox.Failures

/-!
# What decides how a mailbox comes to rest

How a mailbox comes to rest, and with it who gets what, is decided by what its clients have asked
for and in which order, and not by how the requests go through the queues
(`CommandScript.Mailbox.Alike.settle`). A mailbox that is underway to rest has told its actor what
it had been asked, control requests first, and after them pushes and takes, each in their order.
-/

namespace CommandScript.Mailbox

variable {α : Type}

open History

/-! ## Underway to rest -/

/-- What holds of a mailbox that is underway to rest from `start` on, where all clients whose token
tells them to give up have done so. The actor has been told of `told`. -/
structure Underway (start mailbox : Mailbox α) (told : Told α) : Prop where
  books : ∃ history, Books mailbox history
  ran : (start.actor.run told).1 = mailbox.actor
  nextRequest : mailbox.nextRequest = start.nextRequest
  handles : mailbox.handles = start.handles
  attends : mailbox.attends = start.attends
  pending : mailbox.pending = start.pending.filter fun pending => mailbox.listening pending.id
  standing : ∀ request ∈ mailbox.standing, request ∈ start.standing
  /-- Of a request that stands anywhere the client still listens if it did. -/
  hears : ∀ request ∈ mailbox.standing, mailbox.listening request = start.listening request
  /-- Only clients of requests that stood somewhere have left. -/
  stays : ∀ request, request ∉ start.standing →
    mailbox.listening request = start.listening request
  placed : ∀ request, Placed request start → Placed request mailbox
  /-- Control requests come first, and then only pushes and takes. -/
  sequence : ∃ calls, told.map Prod.snd ++ mailbox.orders.map Control.event =
      start.orders.map Control.event ++ calls ∧ ∀ call ∈ calls, call.IsCall start.listening
  agreed : ∀ entry ∈ told, ∀ request, entry.2.request? = some request →
    entry.1 request = start.listening request
  items : mailbox.arrivals told = start.arrivals []
  takes : mailbox.actor.ended = false →
    (mailbox.callers told).filter start.listening = (start.callers []).filter start.listening
  waits : mailbox.waits = .empty
  /-- Where the input stays open nothing is lost. -/
  lossless : start.orders = [] → start.actor.Lasting → mailbox.actor.Lasting ∧
    Actor.Lossless start.listening (told.map Prod.snd) start.actor mailbox.actor
      (start.actor.run told).2

variable {start mailbox : Mailbox α} {told : Told α} {fired? : TokenId → Option Failure}

/-- A mailbox without waits is underway from itself. -/
theorem Underway.refl {history : History α} (books : Books mailbox history)
    (waits : mailbox.waits = .empty) : Underway mailbox mailbox [] where
  books := ⟨history, books⟩
  ran := rfl
  nextRequest := rfl
  handles := rfl
  attends := rfl
  pending := (List.filter_eq_self.mpr fun _ => listening_of_mem).symm
  standing := fun _ member => member
  hears := fun _ _ => rfl
  stays := fun _ _ => rfl
  placed := fun _ placed => placed
  sequence := ⟨[], (List.append_nil _).symm, fun _ member => absurd member List.not_mem_nil⟩
  agreed := fun _ member => absurd member List.not_mem_nil
  items := rfl
  takes := fun _ => rfl
  waits := waits
  lossless := fun _ lasting => ⟨lasting, .remaining (.refl _) lasting.nobody rfl
    (List.append_nil _).symm (List.append_nil _).symm⟩

/-! ## Looking at requests -/

/-- Who enters a queue that is served stays in order. -/
theorem ReadQueue.requests_enter_open (queue : ReadQueue) (slots : Nat) (request : RequestId) :
    (queue.enter slots false request).1.requests = queue.requests := by
  unfold ReadQueue.enter
  split
  · rfl
  · rename_i first rest line
    split
    · rfl
    · rename_i same
      rw [not_not] at same
      subst same
      rw [if_neg Bool.false_ne_true]
      split
      · simp [requests, line]
      · rfl

/-- A request that is not in a queue leaves nothing there. -/
theorem ReadQueue.requests_leave {queue : ReadQueue} {request : RequestId}
    (absent : request ∉ queue.requests) : (queue.leave request).requests = queue.requests := by
  rw [requests, List.mem_append, not_or] at absent
  have all : (queue.line.filter fun other => other ≠ request) = queue.line := by
    rw [List.filter_eq_self]
    intro other member
    exact decide_eq_true fun same => absent.2 (same ▸ member)
  rw [requests, requests, leave, all]

/-- A request that has been answered stands nowhere else. -/
theorem Books.answered_alone {history : History α} (books : Books mailbox history)
    {request : RequestId} (answered : request ∈ mailbox.answers.map Prod.fst) :
    request ∉ mailbox.takes.requests ∧ ∀ other ∈ (mailbox.forget request).standing,
      other ∈ mailbox.standing ∧ other ≠ request := by
  have place := books.places request
  have once := List.nodup_iff_count.mp (List.nodup_range (n := mailbox.nextRequest)) request
  have here := List.count_pos_iff.mpr answered
  simp only [standing, List.count_append] at place
  refine ⟨List.count_eq_zero.mp (by omega), fun other member => ?_⟩
  have fewer : (mailbox.forget request).standing.Sublist mailbox.standing := by
    unfold standing
    refine .append (.append (.append (.append (.append ?_ (.refl _)) (.refl _)) ?_) ?_) (.refl _)
    · exact List.filter_sublist.map Prod.fst
    · exact List.filter_sublist.append_left _
    · exact List.filter_sublist.append_left _
  refine ⟨fewer.subset member, ?_⟩
  rintro rfl
  have answers : ((mailbox.answers.filter fun entry => entry.1 ≠ other).map Prod.fst).count
      other = 0 := by
    refine List.count_eq_zero.mpr fun present => ?_
    obtain ⟨entry, kept, same⟩ := List.mem_map.mp present
    exact of_decide_eq_true (List.mem_filter.mp kept).2 same
  have takes : (mailbox.takes.leave other).requests.count other ≤
      mailbox.takes.requests.count other :=
    (List.filter_sublist.append_left _).count_le other
  have waits : (mailbox.waits.leave other).requests.count other ≤
      mailbox.waits.requests.count other :=
    (List.filter_sublist.append_left _).count_le other
  have still := List.count_pos_iff.mpr member
  simp only [standing, Mailbox.forget, List.count_append] at still
  omega

/-- A mailbox stays underway when a request enters its queue. -/
theorem Underway.enter (underway : Underway start mailbox told) {request : RequestId}
    (hears : mailbox.listening request = true) :
    Underway start (mailbox.enter request) told := by
  obtain ⟨history, books⟩ := underway.books
  have unserved := mailbox.enter_unserved request
  have pending := mailbox.enter_pending request
  have listens : (mailbox.enter request).listening = mailbox.listening := by
    funext id
    rw [listening, listening, pending]
  have stood {other : RequestId} (member : other ∈ (mailbox.enter request).standing) :
      other ∈ mailbox.standing := by
    have fewer := (enter_shift mailbox request).standing other
    rw [List.count_nil, Nat.add_zero] at fewer
    exact List.count_pos_iff.mp (Nat.lt_of_lt_of_le (List.count_pos_iff.mpr member) fewer)
  refine
    { books := ⟨history, books.enter hears⟩
      ran := unserved.actor ▸ underway.ran
      nextRequest := unserved.nextRequest.trans underway.nextRequest
      handles := unserved.handles.trans underway.handles
      attends := unserved.attends.trans underway.attends
      pending := by rw [pending, listens, ← underway.pending]
      standing := fun other member => underway.standing other (stood member)
      hears := fun other member => listens ▸ underway.hears other (stood member)
      stays := listens ▸ underway.stays
      placed := fun other placed => enter_placed request (underway.placed other placed)
      sequence := unserved.orders ▸ underway.sequence
      agreed := underway.agreed
      items := ?_
      takes := fun running => ?_
      waits := ?_
      lossless := unserved.actor ▸ underway.lossless }
  · rw [← underway.items, arrivals, arrivals, unserved.pushes, unserved.overflow]
  · rw [unserved.actor] at running
    rw [← underway.takes running, callers, callers, enter_takes, running,
      ReadQueue.requests_enter_open]
  · rw [enter_waits, ReadQueue.enter_of_nil _ (underway.waits ▸ rfl)]
    exact underway.waits

/-- A mailbox stays underway when an answered request is forgotten. -/
theorem Underway.forget (underway : Underway start mailbox told) {request : RequestId}
    (answered : request ∈ mailbox.answers.map Prod.fst)
    (books : ∃ history, Books (mailbox.forget request) history) :
    Underway start (mailbox.forget request) told := by
  obtain ⟨history, known⟩ := underway.books
  obtain ⟨absent, fewer⟩ := known.answered_alone answered
  have listens {other : RequestId} (different : other ≠ request) :
      (mailbox.forget request).listening other = mailbox.listening other := by
    rw [Bool.eq_iff_iff, forget_listening_iff]
    exact ⟨And.left, fun hears => ⟨hears, different⟩⟩
  have stood : request ∈ mailbox.standing := by
    simp only [Mailbox.standing, List.mem_append]
    exact .inl (.inl (.inl (.inl (.inl answered))))
  refine
    { underway with
      books := books
      pending := ?_
      standing := fun other member => underway.standing other (fewer other member).1
      hears := fun other member => ?_
      stays := fun other nowhere => ?_
      placed := fun other placed => forget_placed request (underway.placed other placed)
      takes := fun running => ?_
      waits := ?_ }
  · change mailbox.pending.filter _ = _
    rw [underway.pending, List.filter_filter]
    refine List.filter_congr fun pending _ => ?_
    by_cases same : pending.id = request
    · have left : (mailbox.forget request).listening pending.id = false := by
        rw [Bool.eq_false_iff]
        exact fun hears => ((forget_listening_iff ..).mp hears).2 same
      rw [left, decide_eq_false (not_not.mpr same), Bool.false_and]
    · rw [listens same, decide_eq_true same, Bool.true_and]
  · obtain ⟨stands, different⟩ := fewer other member
    exact (listens different).trans (underway.hears other stands)
  · refine (listens fun same => nowhere ?_).trans (underway.stays other nowhere)
    exact same ▸ underway.standing request stood
  · have same : (mailbox.forget request).callers told = mailbox.callers told :=
      congrArg (takersOf told ++ ·) (ReadQueue.requests_leave absent)
    rw [same]
    exact underway.takes running
  · change mailbox.waits.leave request = .empty
    rw [underway.waits]
    rfl

/-- Where nobody is told to give up, a look at a request goes on underway. -/
theorem Underway.poll (underway : Underway start mailbox told)
    (unfired : ∀ pending ∈ start.pending, pending.token.bind fired? = none) {pending : Pending}
    (member : pending ∈ mailbox.pending) :
    Underway start (mailbox.poll fired? pending).1 told := by
  have entered := underway.enter (listening_of_mem member)
  have unsignalled := unfired pending (List.mem_of_mem_filter (underway.pending ▸ member))
  obtain ⟨history, books⟩ := underway.books
  have polled := books.poll fired? member
  rcases poll_cases fired? mailbox pending with
    ⟨answer, found, same⟩ | ⟨failure, -, signal, -⟩ | ⟨-, -, same⟩
  · rw [same] at polled ⊢
    refine entered.forget ?_ ⟨_, polled⟩
    obtain ⟨front, back, whole, -⟩ := List.lookup_eq_some_iff.mp found
    rw [whole, List.map_append]
    exact List.mem_append_right _ List.mem_cons_self
  · rw [unsignalled] at signal
    cases signal
  · rw [same]
    exact entered

/-- A mailbox stays underway when all requests are polled, if no token has fired. -/
theorem Underway.pollAll (underway : Underway start mailbox told)
    (unfired : ∀ pending ∈ start.pending, pending.token.bind fired? = none) :
    Underway start (mailbox.pollAll fired?).1 told := by
  obtain ⟨history, books⟩ := underway.books
  have looking (requests : List Pending) : ∀ {mailbox : Mailbox α},
      Underway start mailbox told → (∀ pending ∈ requests, pending ∈ mailbox.pending) →
      (requests.map Pending.id).Nodup →
      Underway start (mailbox.pollEach fired? requests).1 told := by
    induction requests with
    | nil => exact fun underway _ _ => underway
    | cons pending rest ih =>
        intro mailbox underway present distinct
        rw [List.map_cons, List.nodup_cons] at distinct
        rw [pollEach_cons]
        refine ih (underway.poll unfired (present pending List.mem_cons_self)) ?_ distinct.2
        intro other member
        refine mem_poll_pending (present other (List.mem_cons_of_mem _ member)) fun same => ?_
        exact distinct.1 (same ▸ List.mem_map_of_mem member)
  exact looking mailbox.pending underway (fun _ member => member) books.pending_nodup

/-! ## Serving -/

/-- A request that stands anywhere after the queues have been served stood somewhere before, and so
did one that the actor found in a queue. -/
theorem serveQueues_standing (mailbox : Mailbox α) {request : RequestId}
    (present : request ∈ mailbox.serveQueues.1.standing ∨
      request ∈ mailbox.queued.filterMap Event.request?) : request ∈ mailbox.standing := by
  have queueing := mailbox.serveQueues_moves.queueing request
  rw [queued_requests] at present queueing
  rw [← List.count_pos_iff, ← List.count_pos_iff] at present
  have served : mailbox.serveQueues.1.standing =
      (mailbox.answers ++ mailbox.serveQueues.2.filterMap Notice.answer?).map Prod.fst ++ [] ++
        mailbox.overflow.map Item.push ++ ([] ++ mailbox.takes.line) ++
          ([] ++ mailbox.waits.line) ++ mailbox.serveQueues.1.actor.held := rfl
  rw [served] at present
  rw [← List.count_pos_iff]
  simp only [standing, ReadQueue.requests, List.map_append, List.count_append,
    List.count_nil] at present queueing ⊢
  omega

/-- What the actor finds in its queues behind control requests are pushes and takes. -/
theorem Underway.calls (underway : Underway start mailbox told) :
    ∃ calls, mailbox.queued = mailbox.orders.map Control.event ++ calls ∧
      ∀ call ∈ calls, call.IsCall start.listening := by
  have seated : mailbox.waits.seated = [] := congrArg ReadQueue.seated underway.waits
  refine ⟨mailbox.pushes.map (fun item => .push item (mailbox.listening item.push)) ++
    mailbox.takes.seated.map fun request => .take request (mailbox.listening request), ?_, ?_⟩
  · rw [queued, seated, List.map_nil, List.append_nil, List.append_assoc]
  · intro call member
    rcases List.mem_append.mp member with push | take
    · obtain ⟨item, queued, rfl⟩ := List.mem_map.mp push
      rw [underway.hears]
      · exact .push item
      · simp only [Mailbox.standing, List.mem_append]
        exact .inl (.inl (.inl (.inl (.inr (List.mem_map_of_mem queued)))))
    · obtain ⟨request, queued, rfl⟩ := List.mem_map.mp take
      rw [underway.hears]
      · exact .take request
      · simp only [Mailbox.standing, ReadQueue.requests, List.mem_append]
        exact .inl (.inl (.inr (.inl queued)))

/-- It depends on the client of an event alone whether it is a call. -/
theorem Event.IsCall.congr {listening other : RequestId → Bool} {event : Event α}
    (call : event.IsCall listening)
    (same : ∀ request, event.request? = some request → listening request = other request) :
    event.IsCall other := by
  cases call with
  | push item =>
      rw [same _ rfl]
      exact .push item
  | take request =>
      rw [same _ rfl]
      exact .take request

/-- Whoever has a request in the queues listens if he did when the mailbox set out. -/
theorem Underway.hears_queued (underway : Underway start mailbox told) {request : RequestId}
    (brought : request ∈ mailbox.queued.filterMap Event.request?) :
    mailbox.listening request = start.listening request :=
  underway.hears request (mailbox.serveQueues_standing (.inr brought))

/-- If the mailbox has set out without a control request, it has none. -/
theorem Underway.uncontrolled (underway : Underway start mailbox told)
    (uncontrolled : start.orders = []) : mailbox.orders = [] := by
  obtain ⟨all, order, areCalls⟩ := underway.sequence
  rw [uncontrolled, List.map_nil, List.nil_append] at order
  refine List.eq_nil_iff_forall_not_mem.mpr fun control member => ?_
  have call := areCalls control.event
    (order ▸ List.mem_append_right _ (List.mem_map_of_mem member))
  cases control <;> cases call

/-- Where the input stays open nothing is lost when the queues are served. -/
theorem Underway.serveQueues_lossless (underway : Underway start mailbox told)
    (uncontrolled : start.orders = []) (lasting : start.actor.Lasting) :
    mailbox.serveQueues.1.actor.Lasting ∧
      Actor.Lossless start.listening ((told ++ mailbox.told).map Prod.snd) start.actor
        mailbox.serveQueues.1.actor ((start.actor.run told).2 ++ mailbox.serveQueues.2) := by
  obtain ⟨calls, queued, isCalls⟩ := underway.calls
  obtain ⟨still, before⟩ := underway.lossless uncontrolled lasting
  have own : ∀ event ∈ mailbox.queued, event.IsCall mailbox.listening := by
    intro event member
    have call : event ∈ calls := by
      rw [queued, underway.uncontrolled uncontrolled] at member
      exact member
    refine (isCalls event call).congr fun request brings => (underway.hears_queued ?_).symm
    exact List.mem_filterMap.mpr ⟨event, member, brings⟩
  obtain ⟨final, now⟩ := Actor.run_lossless still own
  refine ⟨final, ?_⟩
  rw [List.map_append, mailbox.map_told]
  refine before.trans (now.congr fun request known => ?_)
  rcases known with earlier | later | brought
  · exact underway.hears request (List.mem_append_right _ earlier)
  · exact underway.hears request
      (mailbox.serveQueues_standing (.inl (List.mem_append_right _ later)))
  · exact underway.hears_queued brought

/-- A mailbox stays underway when its queues are served. -/
theorem Underway.serveQueues (underway : Underway start mailbox told) :
    Underway start mailbox.serveQueues.1 (told ++ mailbox.told) := by
  obtain ⟨history, books⟩ := underway.books
  obtain ⟨calls, queued, isCalls⟩ := underway.calls
  have served : mailbox.actor.run mailbox.told =
      (mailbox.serveQueues.1.actor, mailbox.serveQueues.2) := rfl
  have run : start.actor.run (told ++ mailbox.told) =
      (mailbox.serveQueues.1.actor, (start.actor.run told).2 ++ mailbox.serveQueues.2) := by
    rw [Actor.run_append, underway.ran, served]
  refine
    { books := ⟨_, books.serveQueues⟩
      ran := by rw [run]
      nextRequest := underway.nextRequest
      handles := underway.handles
      attends := mailbox.serveQueues_attends.trans underway.attends
      pending := underway.pending
      standing := fun request member =>
        underway.standing request (mailbox.serveQueues_standing (.inl member))
      hears := fun request member =>
        underway.hears request (mailbox.serveQueues_standing (.inl member))
      stays := underway.stays
      placed := fun request placed => serveQueues_placed (underway.placed request placed)
      sequence := ?_
      agreed := fun entry member request brings => ?_
      items := (serveQueues_arrivals mailbox told).trans underway.items
      takes := fun running => ?_
      waits := ?_
      lossless := fun uncontrolled lasting => ?_ }
  · obtain ⟨earlier, order, areCalls⟩ := underway.sequence
    refine ⟨earlier ++ calls, ?_, fun call member =>
      (List.mem_append.mp member).elim (areCalls call) (isCalls call)⟩
    rw [serveQueues_orders, List.map_nil, List.append_nil, List.map_append, mailbox.map_told, queued, ← List.append_assoc, order,
      List.append_assoc]
  · rcases List.mem_append.mp member with before | now
    · exact underway.agreed entry before request brings
    · obtain ⟨event, present, rfl⟩ := List.mem_map.mp now
      exact underway.hears_queued (List.mem_filterMap.mpr ⟨event, present, brings⟩)
  · rw [serveQueues_callers]
    exact underway.takes (running_of_serveQueues running)
  · change mailbox.waits.serve = .empty
    rw [underway.waits]
    rfl
  · rw [run]
    exact underway.serveQueues_lossless uncontrolled lasting

/-- A mailbox stays underway when pushes set aside are let in. -/
theorem Underway.letIn (underway : Underway start mailbox told) (idle : mailbox.pushes = []) :
    Underway start mailbox.letIn told := by
  obtain ⟨history, books⟩ := underway.books
  have stood {request : RequestId} (member : request ∈ mailbox.letIn.standing) :
      request ∈ mailbox.standing := by
    have whole := congrArg (fun items => request ∈ items.map Item.push)
      (List.take_append_drop mailbox.slots mailbox.overflow)
    simp only [List.map_append, List.mem_append, eq_iff_iff] at whole
    simp only [Mailbox.standing, Mailbox.letIn, idle, List.map_nil, List.mem_append] at member ⊢
    tauto
  exact
    { underway with
      books := ⟨history, books.letIn idle⟩
      standing := fun request member => underway.standing request (stood member)
      hears := fun request member => underway.hears request (stood member)
      placed := fun request placed => letIn_placed idle (underway.placed request placed)
      items := (letIn_arrivals idle told).trans underway.items }

/-- A mailbox that goes on to serve and to look at requests, with nobody told to give up, stays
underway. -/
theorem Underway.settleFor (underway : Underway start mailbox told)
    (unfired : ∀ pending ∈ start.pending, pending.token.bind fired? = none) (rounds : Nat) :
    Underway start (mailbox.settleFor fired? rounds).1
      (told ++ mailbox.toldSettling fired? rounds) := by
  induction rounds generalizing mailbox told with
  | zero =>
      rw [toldSettling, List.append_nil]
      exact underway.pollAll unfired
  | succ rounds ih =>
      rw [toldSettling, ← List.append_assoc]
      exact ih (serve_induct (fun _ _ => Underway.serveQueues)
        (fun _ _ idle underway => underway.letIn idle) (underway.pollAll unfired))

/-! ## The first look at all requests -/

/-- No answer is unseen, nobody asks for word of an item, and an actor that has ended keeps nobody
in line. -/
structure Unanswered (mailbox : Mailbox α) : Prop where
  seen : mailbox.answers = []
  waits : mailbox.waits = .empty
  turned : mailbox.actor.ended = true → mailbox.takes.line = []

namespace Unanswered

variable {left right : Mailbox α}

/-- Takes stay in line or get a slot; none is refused. -/
theorem takes_enter (unanswered : mailbox.Unanswered) (request : RequestId) :
    (mailbox.takes.enter mailbox.slots mailbox.actor.ended request).1.requests =
        mailbox.takes.requests ∧
      (mailbox.takes.enter mailbox.slots mailbox.actor.ended request).2 = false := by
  cases ended : mailbox.actor.ended with
  | true =>
      rw [ReadQueue.enter_of_nil _ (unanswered.turned ended)]
      exact ⟨rfl, rfl⟩
  | false =>
      refine ⟨ReadQueue.requests_enter_open .., ?_⟩
      unfold ReadQueue.enter
      split
      · rfl
      · split
        · rfl
        · rw [if_neg Bool.false_ne_true]
          split <;> rfl

theorem enter (unanswered : mailbox.Unanswered) (request : RequestId) :
    (mailbox.enter request).Unanswered := by
  have unserved := mailbox.enter_unserved request
  have waits : mailbox.waits.enter mailbox.slots mailbox.actor.ended request =
      (mailbox.waits, false) := ReadQueue.enter_of_nil _ (unanswered.waits ▸ rfl)
  refine ⟨?_, ?_, fun ended => ?_⟩
  · rw [enter_answers, (unanswered.takes_enter request).2, waits, unanswered.seen]
    rfl
  · rw [enter_waits, waits, unanswered.waits]
  · rw [unserved.actor] at ended
    rw [enter_takes, ReadQueue.enter_of_nil _ (unanswered.turned ended)]
    exact unanswered.turned ended

theorem forget (unanswered : mailbox.Unanswered) (request : RequestId) :
    (mailbox.forget request).Unanswered where
  seen := by
    change mailbox.answers.filter _ = []
    rw [unanswered.seen]
    rfl
  waits := by
    change mailbox.waits.leave request = .empty
    rw [unanswered.waits]
    rfl
  turned := fun ended => by
    change mailbox.takes.line.filter _ = []
    rw [unanswered.turned ended]
    rfl

/-- Where no answer is unseen, only a token can end a request that is looked at. -/
theorem poll (unanswered : mailbox.Unanswered) (fired? : TokenId → Option Failure)
    (pending : Pending) :
    mailbox.poll fired? pending =
      match pending.token.bind fired? with
      | some failure => ((mailbox.enter pending.id).forget pending.id, some (.error failure))
      | none => (mailbox.enter pending.id, none) := by
  have unseen : (mailbox.enter pending.id).answers.lookup pending.id = none := by
    rw [(unanswered.enter pending.id).seen]
    rfl
  rcases poll_cases fired? mailbox pending with
    ⟨answer, found, -⟩ | ⟨failure, -, signal, same⟩ | ⟨-, signal, same⟩
  · rw [unseen] at found
    cases found
  · rw [same, signal]
  · rw [same, signal]

/-- To poll a request leaves no answer unseen. -/
theorem poll_unanswered (unanswered : mailbox.Unanswered) (fired? : TokenId → Option Failure)
    (pending : Pending) : (mailbox.poll fired? pending).1.Unanswered := by
  rw [unanswered.poll]
  split
  · exact (unanswered.enter _).forget _
  · exact unanswered.enter _

/-- Which requests end when several are looked at depends on their tokens alone. -/
theorem pollEach_congr (first : left.Unanswered) (second : right.Unanswered)
    (pending : left.pending = right.pending) (fired? : TokenId → Option Failure)
    (requests : List Pending) :
    (left.pollEach fired? requests).1.pending = (right.pollEach fired? requests).1.pending ∧
      (left.pollEach fired? requests).2 = (right.pollEach fired? requests).2 := by
  induction requests generalizing left right with
  | nil => exact ⟨pending, rfl⟩
  | cons request rest ih =>
      have entered : (left.enter request.id).pending = (right.enter request.id).pending := by
        rw [enter_pending, enter_pending, pending]
      obtain ⟨same, ended⟩ : (left.poll fired? request).1.pending =
          (right.poll fired? request).1.pending ∧
            (left.poll fired? request).2 = (right.poll fired? request).2 := by
        rw [first.poll, second.poll]
        cases request.token.bind fired? with
        | none => exact ⟨entered, rfl⟩
        | some failure => exact ⟨congrArg (List.filter _) entered, rfl⟩
      obtain ⟨final, more⟩ := ih (first.poll_unanswered fired? request)
        (second.poll_unanswered fired? request) same
      rw [pollEach_cons, pollEach_cons, ended, more]
      exact ⟨final, rfl⟩

/-- Of those who go on listening all takes stay in line. -/
theorem pollEach_takes (unanswered : mailbox.Unanswered) (fired? : TokenId → Option Failure)
    (requests : List Pending) {keep : RequestId → Bool}
    (kept : ∀ request, keep request = true →
      (mailbox.pollEach fired? requests).1.listening request = true) :
    (mailbox.pollEach fired? requests).1.takes.requests.filter keep =
      mailbox.takes.requests.filter keep := by
  induction requests generalizing mailbox with
  | nil => rfl
  | cons pending rest ih =>
      rw [pollEach_cons] at kept ⊢
      rw [ih (unanswered.poll_unanswered fired? pending) kept]
      have entered : (mailbox.enter pending.id).takes.requests = mailbox.takes.requests := by
        rw [enter_takes]
        exact (unanswered.takes_enter pending.id).1
      have fewer := pollEach_pending_subset fired? (mailbox.poll fired? pending).1 rest
      rw [unanswered.poll] at fewer ⊢
      cases signal : pending.token.bind fired? with
      | none => exact congrArg (List.filter keep) entered
      | some failure =>
          rw [signal] at fewer
          have left : keep pending.id = false := by
            rw [Bool.eq_false_iff]
            intro hears
            have still := (listening_iff ..).mp (kept _ hears)
            rw [unanswered.poll, signal] at still
            obtain ⟨other, member, same⟩ := List.mem_map.mp still
            exact of_decide_eq_true (List.mem_filter.mp (fewer member)).2 same
          have gone : (mailbox.enter pending.id).takes.line.filter
              (fun other => keep other && decide (other ≠ pending.id)) =
                (mailbox.enter pending.id).takes.line.filter keep := by
            refine List.filter_congr fun other _ => ?_
            by_cases same : other = pending.id
            · rw [same, left, Bool.false_and]
            · rw [decide_eq_true same, Bool.and_true]
          rw [← entered]
          change ((mailbox.enter pending.id).takes.seated ++ List.filter _ _).filter keep = _
          rw [List.filter_append, List.filter_filter, gone, ← List.filter_append]
          rfl

end Unanswered

/-- Whoever goes on waiting after a look at its request is not told to give up. -/
theorem pollEach_unfired (mailbox : Mailbox α) (fired? : TokenId → Option Failure)
    (requests : List Pending) :
    ∀ pending ∈ (mailbox.pollEach fired? requests).1.pending, pending ∈ requests →
      pending.token.bind fired? = none := by
  induction requests generalizing mailbox with
  | nil => exact fun _ _ member => absurd member List.not_mem_nil
  | cons first rest ih =>
      intro pending still member
      rw [pollEach_cons] at still
      rcases List.mem_cons.mp member with rfl | later
      · have here := pollEach_pending_subset fired? (mailbox.poll fired? pending).1 rest still
        rcases poll_cases fired? mailbox pending with
          ⟨answer, -, same⟩ | ⟨failure, -, -, same⟩ | ⟨-, signal, -⟩
        · rw [same] at here
          exact absurd rfl (of_decide_eq_true (List.mem_filter.mp here).2)
        · rw [same] at here
          exact absurd rfl (of_decide_eq_true (List.mem_filter.mp here).2)
        · exact signal
      · exact ih _ pending still later

end CommandScript.Mailbox
