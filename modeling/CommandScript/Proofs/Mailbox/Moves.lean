import CommandScript.Proofs.Mailbox.Reaction

/-!
# What the work of an actor moves

An actor moves items and requests about: into its buffer, to a client, away with an overflow or a
clearance. A piece of its work is a fair move when every item that enters the buffer is acknowledged
and every item that leaves it is told of, when no request is answered twice, and when the published
numbers follow. Fair moves compose, so that a whole run of events is one
(`CommandScript.Mailbox.Actor.run_moves`).
-/

namespace CommandScript.Mailbox

variable {α : Type}

/-! ## What notices tell -/

/-- The push that a notice acknowledges. -/
def Notice.accepted? : Notice α → Option RequestId
  | .answered request .accepted => some request
  | _ => none

/-- The item that leaves the mailbox with a notice. -/
def Notice.departed? : Notice α → Option (Item α)
  | .answered _ (.delivered item) => some item
  | .answered _ _ => none
  | .evicted item _ => some item
  | .cleared item => some item

/-- The item that is lost to overflow with a notice, and the push that overflows. -/
def Notice.eviction? : Notice α → Option (Item α × RequestId)
  | .evicted item overflowing => some (item, overflowing)
  | _ => none

/-- The item that is thrown away with a notice. -/
def Notice.cleared? : Notice α → Option (Item α)
  | .cleared item => some item
  | _ => none

/-- The client that gets an item with a notice, or learns that there is one. -/
def Notice.served? : Notice α → Option RequestId
  | .answered request (.delivered _) => some request
  | .answered request .ready => some request
  | _ => none

/-- The item that an event brings to the actor. -/
def Event.item? : Event α → Option (Item α)
  | .push item _ => some item
  | _ => none

/-- The request that an event brings to the actor. -/
def Event.request? : Event α → Option RequestId
  | .push item _ => some item.push
  | .take request _ => some request
  | .wait request => some request
  | _ => none

/-- The request for an item, or for word of one, that an event brings to the actor. -/
def Event.reader? : Event α → Option RequestId
  | .take request _ => some request
  | .wait request => some request
  | _ => none

/-- A push whose client is said to be present has a client that listens. -/
def Event.Truthful (listening : RequestId → Bool) : Event α → Prop
  | .push item present => present = true → listening item.push = true
  | _ => True

namespace Actor

/-- The actor's work on some events leads from one state to another and is told by notices: items
and requests are neither made up, nor lost, nor doubled. -/
structure Moves (listening : RequestId → Bool) (events : List (Event α)) (before after : Actor α)
    (notices : List (Notice α)) : Prop where
  /-- What was buffered or is acknowledged stays or departs. -/
  balance : ∀ push : RequestId,
    (before.buffer.map Item.push).count push + (notices.filterMap Notice.accepted?).count push =
      (after.buffer.map Item.push).count push +
        ((notices.filterMap Notice.departed?).map Item.push).count push
  /-- A request is answered or kept no more often than it was kept or has arrived. -/
  queueing : ∀ request : RequestId,
    ((notices.filterMap Notice.answer?).map Prod.fst).count request + after.held.count request ≤
      before.held.count request + (events.filterMap Event.request?).count request
  /-- Items come from what the actor had and from the events. -/
  provenance : ∀ item : Item α,
    item ∈ after.buffer ∨ item ∈ after.blocked ∨ item ∈ notices.filterMap Notice.departed? →
      item ∈ before.buffer ∨ item ∈ before.blocked ∨ item ∈ events.filterMap Event.item?
  /-- Only who asks for an item gets one, or word of one. -/
  clientele : ∀ request : RequestId,
    request ∈ after.takers ∨ request ∈ after.waiters ∨
        request ∈ notices.filterMap Notice.served? →
      request ∈ before.takers ∨ request ∈ before.waiters ∨
        request ∈ events.filterMap Event.reader?
  /-- Answers reach those who listen. -/
  heard : ∀ answered ∈ notices.filterMap Notice.answer?, listening answered.1 = true
  /-- Only an acknowledged push makes an item overflow. -/
  blamed : ∀ eviction ∈ notices.filterMap Notice.eviction?,
    eviction.2 ∈ notices.filterMap Notice.accepted?
  published : before.depth = before.buffer.length → after.depth = after.buffer.length
  counted :
    after.discarded = before.discarded + (notices.filterMap Notice.eviction?).length
  lasting : Event.discard ∉ events →
    after.ended = before.ended ∧ notices.filterMap Notice.cleared? = []

namespace Moves

variable {listening : RequestId → Bool} {events first second : List (Event α)}
  {before middle after : Actor α} {notices told more : List (Notice α)}

/-- Doing nothing is a fair move. -/
theorem refl (actor : Actor α) : Moves listening [] actor actor [] where
  balance := fun _ => rfl
  queueing := fun _ => by simp
  provenance := fun _ present => by simpa using present
  clientele := fun _ present => by simpa using present
  heard := by simp
  blamed := by simp
  published := id
  counted := rfl
  lasting := fun _ => ⟨rfl, rfl⟩

/-- One fair move after another is a fair move. -/
theorem trans (front : Moves listening first before middle told)
    (back : Moves listening second middle after more) :
    Moves listening (first ++ second) before after (told ++ more) where
  balance := by
    intro push
    have early := front.balance push
    have late := back.balance push
    simp only [List.filterMap_append, List.map_append, List.count_append]
    omega
  queueing := by
    intro request
    have early := front.queueing request
    have late := back.queueing request
    simp only [List.filterMap_append, List.map_append, List.count_append]
    omega
  provenance := by
    intro item present
    simp only [List.filterMap_append, List.mem_append] at present ⊢
    have early := front.provenance item
    have late := back.provenance item
    tauto
  clientele := by
    intro request present
    simp only [List.filterMap_append, List.mem_append] at present ⊢
    have early := front.clientele request
    have late := back.clientele request
    tauto
  heard := by
    intro answered member
    rw [List.filterMap_append, List.mem_append] at member
    exact member.elim (front.heard answered) (back.heard answered)
  blamed := by
    intro eviction member
    rw [List.filterMap_append, List.mem_append] at member ⊢
    exact member.imp (front.blamed eviction) (back.blamed eviction)
  published := fun exact => back.published (front.published exact)
  counted := by
    rw [back.counted, front.counted, List.filterMap_append, List.length_append, Nat.add_assoc]
  lasting := by
    intro kept
    rw [List.mem_append, not_or] at kept
    have early := front.lasting kept.1
    have late := back.lasting kept.2
    exact ⟨late.1.trans early.1, by rw [List.filterMap_append, early.2, late.2, List.append_nil]⟩

/-- A fair move without events before another. -/
theorem before_events (front : Moves listening [] before middle told)
    (back : Moves listening events middle after more) :
    Moves listening events before after (told ++ more) :=
  front.trans back

/-- A fair move without events after another. -/
theorem after_events (front : Moves listening events before middle told)
    (back : Moves listening [] middle after more) :
    Moves listening events before after (told ++ more) := by
  simpa only [List.append_nil] using front.trans back

end Moves

/-! ## Answers that move no item -/

/-- Answers of one kind tell only what a single one of them tells. -/
theorem filterMap_answerAll_eq_nil {β : Type} (tell : Notice α → Option β)
    (listening : RequestId → Bool) (requests : List RequestId) (reply : Answer α)
    (silent : ∀ request, tell (.answered request reply) = none) :
    (answerAll listening requests reply).filterMap tell = [] := by
  rw [List.filterMap_eq_nil_iff]
  intro notice member
  obtain ⟨request, -, told⟩ := List.mem_flatMap.mp member
  unfold answer at told
  split at told
  · rw [List.mem_singleton.mp told, silent request]
  · exact absurd told List.not_mem_nil

/-- The clients that hear an answer given to several are those who listen. -/
theorem filterMap_answer?_answerAll (listening : RequestId → Bool) (requests : List RequestId)
    (reply : Answer α) :
    (answerAll listening requests reply).filterMap Notice.answer? =
      (requests.filter listening).map fun request => (request, reply) := by
  induction requests with
  | nil => rfl
  | cons request rest ih =>
    change ((answer listening request reply) ++ answerAll listening rest reply).filterMap _ = _
    rw [List.filterMap_append, ih]
    by_cases hears : listening request = true
    · simp [answer, hears, Notice.answer?]
    · simp [answer, hears]

/-- A single answer is one that is given to a single request. -/
theorem answerAll_singleton (listening : RequestId → Bool) (request : RequestId)
    (reply : Answer α) :
    answerAll listening [request] reply = answer listening request reply := by
  rw [answerAll, List.flatMap_singleton]

/-- Once the actor has ended, whatever an event asks for is refused. -/
theorem afterEnd_eq (listening : RequestId → Bool) (event : Event α) :
    afterEnd listening event = answerAll listening event.request?.toList .notRunning := by
  cases event with
  | close => rfl
  | discard => rfl
  | _ => exact (answerAll_singleton listening _ _).symm

/-- Whoever has only a word to tell about the state of the mailbox moves no item. -/
def Answer.Passive (reply : Answer α) : Prop :=
  reply = .ready ∨ reply = .notRunning

namespace Moves

variable {listening : RequestId → Bool} {events : List (Event α)} {before after : Actor α}

/-- Requests are answered without an item being moved. -/
theorem answering {requests : List RequestId} {reply : Answer α} (passive : Answer.Passive reply)
    (buffer : after.buffer = before.buffer)
    (held : ∀ request, requests.count request + after.held.count request ≤
      before.held.count request + (events.filterMap Event.request?).count request)
    (blocked : ∀ item ∈ after.blocked,
      item ∈ before.blocked ∨ item ∈ events.filterMap Event.item?)
    (readers : ∀ request, request ∈ after.takers ∨ request ∈ after.waiters ∨
        reply = .ready ∧ request ∈ requests →
      request ∈ before.takers ∨ request ∈ before.waiters ∨
        request ∈ events.filterMap Event.reader?)
    (published : before.depth = before.buffer.length → after.depth = after.buffer.length)
    (discarded : after.discarded = before.discarded) (ended : after.ended = before.ended) :
    Moves listening events before after (answerAll listening requests reply) := by
  have accepted : (answerAll listening requests reply).filterMap Notice.accepted? = [] :=
    filterMap_answerAll_eq_nil _ _ _ _ (by rcases passive with rfl | rfl <;> exact fun _ => rfl)
  have departed : (answerAll listening requests reply).filterMap Notice.departed? = [] :=
    filterMap_answerAll_eq_nil _ _ _ _ (by rcases passive with rfl | rfl <;> exact fun _ => rfl)
  have evictions : (answerAll listening requests reply).filterMap Notice.eviction? = [] :=
    filterMap_answerAll_eq_nil _ _ _ _ fun _ => rfl
  have cleared : (answerAll listening requests reply).filterMap Notice.cleared? = [] :=
    filterMap_answerAll_eq_nil _ _ _ _ fun _ => rfl
  refine
    { balance := fun push => by rw [accepted, departed, buffer]; rfl
      queueing := fun request => ?_
      provenance := fun item present => ?_
      clientele := fun request present => ?_
      heard := fun answered member => ?_
      blamed := fun eviction member => by rw [evictions] at member; cases member
      published := published
      counted := by rw [discarded, evictions]; rfl
      lasting := fun _ => ⟨ended, cleared⟩ }
  · rw [filterMap_answer?_answerAll, List.map_map]
    have fewer : (requests.filter listening).count request ≤ requests.count request :=
      List.filter_sublist.count_le request
    have same : (requests.filter listening).map (Prod.fst ∘ fun request => (request, reply)) =
        requests.filter listening := List.map_id _
    rw [same]
    exact Nat.le_trans (Nat.add_le_add_right fewer _) (held request)
  · rw [departed, buffer] at present
    rcases present with buffered | waiting | none
    · exact .inl buffered
    · exact .inr (blocked item waiting)
    · cases none
  · refine readers request (present.imp_right (Or.imp_right fun served => ?_))
    obtain ⟨notice, member, word⟩ := List.mem_filterMap.mp served
    obtain ⟨other, asked, told⟩ := List.mem_flatMap.mp member
    unfold answer at told
    split at told
    · rw [List.mem_singleton.mp told] at word
      rcases passive with rfl | rfl
      · exact ⟨rfl, Option.some.inj word ▸ asked⟩
      · cases word
    · cases told
  · rw [filterMap_answer?_answerAll] at member
    obtain ⟨request, hears, rfl⟩ := List.mem_map.mp member
    exact (List.mem_filter.mp hears).2

/-- Requests fail without an item being moved. -/
theorem failing {requests : List RequestId} (buffer : after.buffer = before.buffer)
    (held : ∀ request, requests.count request + after.held.count request ≤
      before.held.count request + (events.filterMap Event.request?).count request)
    (blocked : ∀ item ∈ after.blocked,
      item ∈ before.blocked ∨ item ∈ events.filterMap Event.item?)
    (readers : ∀ request, request ∈ after.takers ∨ request ∈ after.waiters →
      request ∈ before.takers ∨ request ∈ before.waiters ∨
        request ∈ events.filterMap Event.reader?)
    (published : before.depth = before.buffer.length → after.depth = after.buffer.length)
    (discarded : after.discarded = before.discarded) (ended : after.ended = before.ended) :
    Moves listening events before after (answerAll listening requests .notRunning) := by
  refine answering (.inr rfl) buffer held blocked ?_ published discarded ended
  intro request present
  refine readers request (present.imp_right fun other => ?_)
  exact other.resolve_right fun told => nomatch told.1

/-- Nothing is told and no item is moved. -/
theorem silent (buffer : after.buffer = before.buffer)
    (held : ∀ request, after.held.count request ≤
      before.held.count request + (events.filterMap Event.request?).count request)
    (blocked : ∀ item ∈ after.blocked,
      item ∈ before.blocked ∨ item ∈ events.filterMap Event.item?)
    (readers : ∀ request, request ∈ after.takers ∨ request ∈ after.waiters →
      request ∈ before.takers ∨ request ∈ before.waiters ∨
        request ∈ events.filterMap Event.reader?)
    (published : before.depth = before.buffer.length → after.depth = after.buffer.length)
    (discarded : after.discarded = before.discarded) (ended : after.ended = before.ended) :
    Moves listening events before after [] := by
  have told : Moves listening events before after (answerAll listening [] .notRunning) := by
    refine failing buffer (fun request => ?_) blocked readers published discarded ended
    simpa only [List.count_nil, Nat.zero_add] using held request
  exact told

/-- A push is acknowledged, its item goes behind the others, and for each item that is lost to
overflow the push is named. -/
theorem accepting (item : Item α) (lost : List (Item α)) (hears : listening item.push = true)
    (whole : (before.buffer ++ [item]).Perm (after.buffer ++ lost))
    (held : ∀ request, [item.push].count request + after.held.count request ≤
      before.held.count request + (events.filterMap Event.request?).count request)
    (arrived : item ∈ before.blocked ∨ item ∈ events.filterMap Event.item?)
    (blocked : after.blocked ⊆ before.blocked) (takers : after.takers = before.takers)
    (waiters : after.waiters = before.waiters)
    (published : before.depth = before.buffer.length → after.depth = after.buffer.length)
    (discarded : after.discarded = before.discarded + lost.length)
    (ended : after.ended = before.ended) :
    Moves listening events before after
      (lost.map (Notice.evicted · item.push) ++ [.answered item.push .accepted]) := by
  have told {β : Type} (tell : Notice α → Option β) :
      (lost.map (Notice.evicted · item.push) ++ [Notice.answered item.push .accepted]).filterMap
          tell =
        lost.filterMap (fun other => tell (.evicted other item.push)) ++
          [Notice.answered item.push .accepted].filterMap tell := by
    rw [List.filterMap_append, List.filterMap_map, Function.comp_def]
  have departed := told Notice.departed?
  have evictions := told Notice.eviction?
  simp only [Notice.departed?, Notice.eviction?, List.filterMap_some, List.filterMap_cons,
    List.filterMap_nil, List.append_nil, List.filterMap_eq_map'] at departed evictions
  refine
    { balance := fun push => ?_
      queueing := fun request => ?_
      provenance := fun other present => ?_
      clientele := fun request present => ?_
      heard := fun answered member => ?_
      blamed := fun eviction member => ?_
      published := published
      counted := ?_
      lasting := fun _ => ⟨ended, ?_⟩ }
  · have same := (whole.map Item.push).count_eq push
    rw [departed, told]
    simpa [Notice.accepted?] using same
  · rw [told]
    simpa [Notice.answer?] using held request
  · rw [departed] at present
    have source (member : other ∈ before.buffer ++ [item]) : other ∈ before.buffer ∨
        other ∈ before.blocked ∨ other ∈ events.filterMap Event.item? := by
      rcases List.mem_append.mp member with buffered | new
      · exact .inl buffered
      · exact .inr (List.mem_singleton.mp new ▸ arrived)
    rcases present with stays | waits | departs
    · exact source (whole.mem_iff.mpr (List.mem_append_left lost stays))
    · exact .inr (.inl (blocked waits))
    · exact source (whole.mem_iff.mpr (List.mem_append_right after.buffer departs))
  · have readers : request ∈ before.takers ∨ request ∈ before.waiters := by
      simpa [told, takers, waiters, Notice.served?] using present
    exact readers.imp_right .inl
  · have same : answered = (item.push, .accepted) := by
      simpa [told, Notice.answer?] using member
    exact same ▸ hears
  · rw [evictions] at member
    obtain ⟨other, -, rfl⟩ := List.mem_map.mp member
    simp [told, Notice.accepted?]
  · rw [discarded, evictions, List.length_map]
  · simp [told, Notice.cleared?]

/-- Events that nobody looks at are a fair move. -/
theorem ignoring (events : List (Event α)) (actor : Actor α) :
    Moves listening events actor actor [] :=
  silent rfl (fun _ => Nat.le_add_right ..) (fun _ member => .inl member)
    (fun _ => Or.imp_right .inl) id rfl rfl

end Moves

variable {listening : RequestId → Bool} {before middle after : Actor α} {told : List (Notice α)}

/-! ## Small steps -/

/-- All takers and waiters fail. -/
theorem failWaiting_moves (actor : Actor α) :
    Moves listening [] actor (actor.failWaiting listening).1 (actor.failWaiting listening).2 := by
  have takers : Moves listening [] actor { actor with takers := [] }
      (answerAll listening actor.takers .notRunning) := by
    refine Moves.failing rfl ?_ (fun _ member => .inl member) ?_ id rfl rfl
    · intro request
      simp only [held, List.count_append, List.count_nil]
      omega
    · exact fun _ present => .inr (.inl (present.resolve_left List.not_mem_nil))
  have waiters : Moves listening [] { actor with takers := [] }
      { actor with takers := [], waiters := [] }
      (answerAll listening actor.waiters .notRunning) := by
    refine Moves.failing rfl ?_ (fun _ member => .inl member) ?_ id rfl rfl
    · intro request
      simp only [held, List.count_append, List.count_nil]
      omega
    · exact fun _ present => present.elim .inl .inl
  exact takers.before_events waiters

/-- A small step is a fair move. -/
theorem SmallStep.moves (step : SmallStep listening before after told) :
    Moves listening [] before after told := by
  cases step with
  | @enter item rest first room hears =>
      refine .accepting item [] hears (.of_eq (List.append_nil _).symm) ?_ ?_ ?_ rfl rfl
        (fun _ => rfl) rfl rfl
      · intro request
        simp only [held, first, withBuffer, List.map_cons, List.count_append, List.count_cons,
          List.count_nil]
        omega
      · exact .inl (first ▸ List.mem_cons_self)
      · exact first ▸ List.subset_cons_self item rest
  | @passPush item rest first deaf =>
      refine .silent rfl ?_ ?_ (fun _ => Or.imp_right .inl) id rfl rfl
      · intro request
        simp only [held, first, List.map_cons, List.count_append, List.count_cons]
        omega
      · intro other member
        exact .inl (first ▸ List.mem_cons_of_mem _ member)
  | wake occupied =>
      refine .answering (.inl rfl) rfl ?_ (fun _ member => .inl member) ?_ id rfl rfl
      · intro request
        simp only [held, List.count_append, List.count_nil]
        omega
      · intro request present
        simp only [List.not_mem_nil, false_or] at present
        exact present.imp_right fun told => .inl told.2
  | @deliver oldest rest taker others buffer first hears =>
      refine
        { balance := fun push => ?_
          queueing := fun request => ?_
          provenance := fun other present => ?_
          clientele := fun request present => ?_
          heard := fun answered member => ?_
          blamed := fun eviction member => by cases member
          published := fun _ => rfl
          counted := rfl
          lasting := fun _ => ⟨rfl, rfl⟩ }
      · simp only [buffer, withBuffer, Notice.accepted?, Notice.departed?, List.filterMap_cons,
          List.filterMap_nil, List.map_cons, List.map_nil, List.count_cons, List.count_nil]
        omega
      · simp only [held, first, withBuffer, Notice.answer?, List.filterMap_cons,
          List.filterMap_nil, List.map_cons, List.map_nil, List.count_append, List.count_cons,
          List.count_nil]
        omega
      · simp only [buffer, withBuffer, Notice.departed?, List.filterMap_cons, List.filterMap_nil,
          List.mem_cons, List.not_mem_nil] at present ⊢
        tauto
      · simp only [first, withBuffer, Notice.served?, List.filterMap_cons, List.filterMap_nil,
          List.mem_cons, List.not_mem_nil] at present ⊢
        tauto
      · rw [List.mem_singleton.mp member]
        exact hears
  | @passTaker taker others first deaf =>
      refine .silent rfl ?_ (fun _ member => .inl member) ?_ (fun _ => rfl) rfl rfl
      · intro request
        simp only [held, first, withBuffer, List.count_append, List.count_cons]
        omega
      · intro request present
        exact present.imp (fun behind => first ▸ List.mem_cons_of_mem _ behind) .inl
  | fail drained closed => exact failWaiting_moves before

/-- Small steps in a row are a fair move. -/
theorem Course.moves (course : Course listening before after told) :
    Moves listening [] before after told := by
  induction course with
  | done actor => exact .refl actor
  | step first rest ih => exact first.moves.before_events ih

/-! ## Events -/

/-- Letting in a push whose client listens is a fair move. -/
theorem Entry.moves {actor : Actor α} {item : Item α}
    (entry : Entry listening actor item middle told) (present : Bool)
    (hears : listening item.push = true) :
    Moves listening [.push item present] actor middle told := by
  have asked (request : RequestId) : [item.push].count request + actor.held.count request ≤
      actor.held.count request +
        ([Event.push item present].filterMap Event.request?).count request :=
    Nat.le_of_eq (Nat.add_comm ..)
  have arrived : item ∈ [Event.push item present].filterMap Event.item? :=
    List.mem_singleton_self item
  cases entry with
  | stays room hears =>
      exact .accepting item [] hears (.of_eq (List.append_nil _).symm) asked (.inr arrived)
        (List.Subset.refl _) rfl rfl (fun _ => rfl) rfl rfl
  | @replaces oldest evicted kept dropping whole hears =>
      refine .accepting item [evicted] hears ?_ asked (.inr arrived) (List.Subset.refl _) rfl rfl
        (fun _ => rfl) rfl rfl
      have split := (perm_of_split whole).append_right [item]
      exact split.trans (List.perm_append_singleton evicted (kept ++ [item])).symm
  | undone deaf =>
      exact .silent rfl (fun _ => Nat.le_add_right ..) (fun _ member => .inl member)
        (fun _ => Or.imp_right .inl) (fun _ => rfl) rfl rfl
  | waits blocking isOpen =>
      refine .silent rfl ?_ ?_ (fun _ => Or.imp_right .inl) id rfl rfl
      · intro request
        simp only [held, Event.request?, List.map_append, List.map_cons, List.map_nil,
          List.filterMap_cons, List.filterMap_nil, List.count_append]
        omega
      · exact fun other member => List.mem_append.mp member
  | lost dropping =>
      have told : answer listening item.push (Answer.accepted : Answer α) =
          [.answered item.push .accepted] := by
        simp only [answer, hears, if_true]
      rw [told]
      exact .accepting item [item] hears (.refl _) asked (.inr arrived) (List.Subset.refl _) rfl
        rfl id rfl rfl

/-- A request that is refused. -/
theorem refused_moves (actor : Actor α) (event : Event α) :
    Moves listening [event] actor actor (afterEnd listening event) := by
  rw [afterEnd_eq]
  refine .failing rfl ?_ (fun _ member => .inl member) (fun _ => Or.imp_right .inl) id rfl rfl
  intro request
  cases event <;>
    simp only [Event.request?, Option.toList_some, Option.toList_none, List.filterMap_cons,
      List.filterMap_nil] <;> omega

/-- A request to be told of an item that is answered at once. -/
theorem told_moves (actor : Actor α) (request : RequestId) {reply : Answer α}
    (passive : Answer.Passive reply) :
    Moves listening [.wait request] actor actor (answer listening request reply) := by
  rw [← answerAll_singleton]
  refine .answering passive rfl ?_ (fun _ member => .inl member) ?_ id rfl rfl
  · intro other
    simp only [Event.request?, List.filterMap_cons, List.filterMap_nil]
    omega
  · intro other present
    simp only [Event.reader?, List.filterMap_cons, List.filterMap_nil]
    tauto

/-- A request to be told of an item that waits for one. -/
theorem awaited_moves (actor : Actor α) (request : RequestId) :
    Moves listening [.wait request] actor
      { actor with waiters := actor.waiters ++ [request] } [] := by
  refine .silent rfl ?_ (fun _ member => .inl member) ?_ id rfl rfl
  · intro other
    simp only [held, Event.request?, List.filterMap_cons, List.filterMap_nil, List.count_append]
    omega
  · intro other present
    simp only [Event.reader?, List.filterMap_cons, List.filterMap_nil,
      List.mem_append] at present ⊢
    tauto

/-- A take that is looked at. -/
theorem onTake_moves (actor : Actor α) (request : RequestId) (present : Bool) :
    Moves listening [.take request present] actor
      (actor.onTake listening request).1 (actor.onTake listening request).2 := by
  have arrived : Moves listening [.take request present] actor
      { actor with takers := actor.takers ++ [request] } [] := by
    refine Moves.silent rfl ?_ (fun _ member => .inl member) ?_ id rfl rfl
    · intro other
      simp only [held, Event.request?, List.filterMap_cons, List.filterMap_nil, List.count_append]
      omega
    · intro other present
      simp only [Event.reader?, List.filterMap_cons, List.filterMap_nil,
        List.mem_append] at present ⊢
      tauto
  exact arrived.after_events (settle_course listening _).moves

/-- All blocked pushes fail. -/
theorem failBlocked_moves (events : List (Event α)) (actor : Actor α) (closed : Bool) :
    Moves listening events actor { actor with closed := closed, blocked := [] }
      (answerAll listening (actor.blocked.map Item.push) .notRunning) := by
  refine .failing rfl ?_ (fun _ member => absurd member List.not_mem_nil)
    (fun _ => Or.imp_right .inl) id rfl rfl
  intro request
  simp only [held, List.map_nil, List.count_append, List.count_nil]
  omega

/-- The mailbox is given up. -/
theorem discard_moves (actor : Actor α) :
    Moves listening [.discard] actor
      (actor.discard listening).1 (actor.discard listening).2 := by
  have cleared : Moves listening [.discard] actor { actor.withBuffer [] with ended := true }
      (actor.buffer.map .cleared) := by
    have departed : (actor.buffer.map Notice.cleared).filterMap Notice.departed? =
        actor.buffer := by
      rw [List.filterMap_map]
      exact List.filterMap_some
    have untold {β : Type} (tell : Notice α → Option β)
        (silent : ∀ item, tell (.cleared item) = none) :
        (actor.buffer.map Notice.cleared).filterMap tell = [] := by
      rw [List.filterMap_map, List.filterMap_eq_nil_iff]
      exact fun item _ => silent item
    have accepted := untold Notice.accepted? fun _ => rfl
    have answers := untold Notice.answer? fun _ => rfl
    have evictions := untold Notice.eviction? fun _ => rfl
    refine
      { balance := fun push => ?_
        queueing := fun request => ?_
        provenance := fun other present => ?_
        clientele := fun request present => ?_
        heard := fun answered member => by rw [answers] at member; cases member
        blamed := fun eviction member => by rw [evictions] at member; cases member
        published := fun _ => rfl
        counted := by rw [evictions]; rfl
        lasting := fun kept => absurd (List.mem_singleton.mpr rfl) kept }
    · rw [departed, accepted]
      simp only [withBuffer, List.map_nil, List.count_nil]
      omega
    · rw [answers]
      simp only [held, withBuffer, List.map_nil, List.count_nil]
      omega
    · rw [departed] at present
      simp only [withBuffer, List.not_mem_nil, false_or] at present
      exact present.elim (fun waiting => .inr (.inl waiting)) .inl
    · rw [untold Notice.served? fun _ => rfl] at present
      exact present.imp_right (Or.imp_right fun none => absurd none List.not_mem_nil)
  have failed := cleared.after_events (failBlocked_moves [] _ actor.closed)
  exact failed.after_events (failWaiting_moves _)

/-- One event is a fair move. -/
theorem Reaction.moves {actor : Actor α} {event : Event α}
    (reaction : Reaction listening actor event after told) (truthful : event.Truthful listening) :
    Moves listening [event] actor after told := by
  cases reaction with
  | refuses event stopped => exact refused_moves _ event
  | missesPush item => exact .ignoring _ _
  | missesTake request => exact .ignoring _ _
  | shutsOut item => exact refused_moves _ (.push item true)
  | letsIn running entry =>
      exact (entry.moves true (truthful rfl)).after_events (settle_course listening _).moves
  | takes request running => exact onTake_moves actor request true
  | tells request word => exact told_moves _ request word
  | waits request running empty isOpen => exact awaited_moves actor request
  | staysClosed => exact .ignoring _ _
  | closes running =>
      exact (failBlocked_moves [.close] actor true).after_events (settle_course listening _).moves
  | discards => exact discard_moves actor

/-- What an actor does with an event is a move, if the event tells the truth about its client. -/
theorem handle_moves (listening : RequestId → Bool) (actor : Actor α) (event : Event α)
    (truthful : event.Truthful listening) :
    Moves listening [event] actor
      (actor.handle listening event).1 (actor.handle listening event).2 :=
  (handle_reaction listening actor event).moves truthful

/-- Events one after the other are a fair move. -/
theorem run_moves (listening : RequestId → Bool) (actor : Actor α) (events : List (Event α))
    (truthful : ∀ event ∈ events, event.Truthful listening) :
    Moves listening events actor
      (actor.run (events.map fun event => (listening, event))).1
      (actor.run (events.map fun event => (listening, event))).2 := by
  induction events generalizing actor with
  | nil => exact .refl actor
  | cons event rest ih =>
      have first := handle_moves listening actor event (truthful event List.mem_cons_self)
      exact first.trans (ih _ fun other member => truthful other (List.mem_cons_of_mem _ member))

end Actor

end CommandScript.Mailbox
