import CommandScript.Proofs.Mailbox.Failures
import CommandScript.Proofs.Mailbox.Handles

/-!
# The end of a mailbox

A request to close or to discard a mailbox overtakes all pushes, takes and waits, and so does the
end of the control queue, which the actor meets when the last writer is gone. Once the actor has
served it, no push is accepted any more, and no push, take or wait stays pending: it gets one of the
items that were buffered, or it fails. After a discard nothing is left, and everything fails
(`CommandScript.Mailbox.run_windsUp`).
-/

namespace CommandScript.Mailbox

variable {α : Type}

open History

/-! ## Answers and outcomes -/

namespace Books

variable {mailbox : Mailbox α} {history : History α}

/-- What is granted has been told, and is no refusal. -/
theorem mem_granted_iff {notices : List (Notice α)} {request : RequestId} {answer : Answer α} :
    (request, answer) ∈ grants (outcomes (notices.filterMap Notice.answer?)) ↔
      .answered request answer ∈ notices ∧ answer ≠ .notRunning := by
  rw [mem_grants, outcomes, List.mem_map]
  constructor
  · rintro ⟨⟨other, given⟩, told, same⟩
    obtain ⟨notice, member, brings⟩ := List.mem_filterMap.mp told
    cases notice with
    | evicted => cases brings
    | cleared => cases brings
    | answered client reply =>
        cases brings
        cases given <;> cases same <;> exact ⟨member, by simp⟩
  · rintro ⟨told, well⟩
    refine ⟨(request, answer), List.mem_filterMap.mpr ⟨_, told, rfl⟩, ?_⟩
    cases answer <;> first | rfl | exact absurd rfl well

section

variable {early : Mailbox α} {later : History α} (books : Books early history)
  (seen : early.answers = []) (whole : Books mailbox (history ++ later))
  (unseen : mailbox.answers = [])

include books seen whole unseen

/-- The answers that are given in a later part of a history are those that end requests there. -/
theorem granted_later :
    (grants (outcomes (later.notices.filterMap Notice.answer?))).Perm (grants later.ended) := by
  have before := books.granted_of_seen seen
  have all := whole.granted_of_seen unseen
  rw [notices_append, ended_append, List.filterMap_append, outcomes_append, grants_append,
    grants_append] at all
  exact (List.perm_append_left_iff _).mp (all.trans (before.symm.append_right _))

/-- A request ends well in a later part of a history when an answer that says so reaches its client
there. -/
theorem mem_later_iff {request : RequestId} {answer : Answer α} :
    (request, .ok answer) ∈ later.ended ↔
      .answered request answer ∈ later.notices ∧ answer ≠ .notRunning := by
  rw [← mem_grants, ← (books.granted_later seen whole unseen).mem_iff, mem_granted_iff]

/-- The items handed over in a later part of a history are those that takes end with there. -/
theorem handed_later : later.handed.Perm later.taken := by
  rw [handed_eq]
  exact (books.granted_later seen whole unseen).filterMap _

section

variable (unaccepted : later.notices.filterMap Notice.accepted? = [])
include unaccepted

/-- Where no push is accepted any more, none ends well. -/
theorem refused_later {item : Item α} (pushed : item ∈ (history ++ later).pushed)
    (answer : Answer α) : (item.push, .ok answer) ∉ later.ended := by
  intro ended
  have known : (item.push, .ok answer) ∈ (history ++ later).ended :=
    List.mem_append_right _ ended
  rcases whole.push_outcome unseen pushed known with same | ⟨failure, same⟩
  · cases same
    have told := ((books.mem_later_iff seen whole unseen).mp ended).1
    have accepted : item.push ∈ later.notices.filterMap Notice.accepted? :=
      List.mem_filterMap.mpr ⟨_, told, rfl⟩
    rw [unaccepted] at accepted
    cases accepted
  · cases same

/-- Where besides nobody gets an item or learns of one, no request ends well. -/
theorem nobody_well (unserved : later.notices.filterMap Notice.served? = [])
    (request : RequestId) (answer : Answer α) : (request, .ok answer) ∉ later.ended := by
  intro ended
  obtain ⟨told, well⟩ := (books.mem_later_iff seen whole unseen).mp ended
  have accepted := List.filterMap_eq_nil_iff.mp unaccepted _ told
  have served := List.filterMap_eq_nil_iff.mp unserved _ told
  cases answer with
  | accepted => cases accepted
  | delivered item => cases served
  | ready => cases served
  | notRunning => exact well rfl

end

end

/-- Where nobody has let go of the mailbox as a whole, no item is cleared away. -/
theorem cleared_later {later : History α} (whole : Books mailbox (history ++ later))
    (kept : (history ++ later).givenUp = false) : later.cleared = [] := by
  have cleared : (history ++ later).cleared = [] := (whole.intact kept).2.2
  rw [History.cleared, notices_append, List.filterMap_append, List.append_eq_nil_iff] at cleared
  exact cleared.2

end Books

/-! ## Runs in two parts -/

/-- A run may be cut in two. -/
theorem World.run_append (world : World α) (front back : List (List (Operation α))) :
    world.run (front ++ back) =
      (((world.run front).1.run back).1,
        (world.run front).2 ++ ((world.run front).1.run back).2) := by
  induction front generalizing world with
  | nil => rfl
  | cons operations rest ih =>
      have later := ih (world.step operations).1
      simp only [List.cons_append, World.run, later]

/-- The tokens given in one run after another. -/
theorem tokensOf_append (world : World α) (front back : List (List (Operation α))) :
    tokensOf (front ++ back) (world.run (front ++ back)).2 =
      tokensOf front (world.run front).2 ++ tokensOf back ((world.run front).1.run back).2 := by
  induction front generalizing world with
  | nil => rfl
  | cons operations rest ih =>
      have later := ih (world.step operations).1
      change _ ++ tokensOf (rest ++ back) ((world.step operations).1.run (rest ++ back)).2 = _
      rw [later, ← List.append_assoc]
      rfl

/-! ## What the actor does from then on -/

section

variable {world : World α} {closing : List (Operation α)} (back : List (List (Operation α)))

/-- Once the input is closed no push is accepted, items are handed over from the oldest one on, and
where there are none nobody gets one or learns of one. -/
theorem World.run_ending (rest : world.mailbox.actor.AtRest)
    (ending : world.mailbox.actor.Shut ∨ (world.operateAll closing).1.mailbox.orders ≠ []) :
    let late := world.run (closing :: back)
    let later := ofRun (closing :: back) late.2
    late.1.mailbox.actor.Shut ∧ later.notices.filterMap Notice.accepted? = [] ∧
      later.handed.map Prod.snd ++ later.cleared ++ late.1.mailbox.actor.buffer =
          world.mailbox.actor.buffer ∧
        (world.mailbox.actor.buffer = [] → later.notices.filterMap Notice.served? = []) := by
  intro late later
  have told := world.run_told (closing :: back)
  have final := Actor.run_atRest _ rest (world.told (closing :: back))
  obtain ⟨listening, first⟩ := world.told_orders closing back
  obtain ⟨shut, remains, same⟩ := Actor.run_of_ending rest
    (ending.imp_right fun asked => exists_first asked first)
  rw [told] at shut remains same final
  have items := Remains.run_items world.mailbox.actor.remains (world.told (closing :: back))
  rw [← same _ fun _ => rfl, ← same _ fun _ => rfl, ← remains, final.items_remains,
    rest.items_remains] at items
  refine ⟨shut, (same _ fun _ => rfl).trans (Remains.run_accepted _ _), items, fun empty => ?_⟩
  exact (same _ fun _ => rfl).trans (Remains.run_served (rest.items_remains.trans empty) _)

/-- Once the mailbox is discarded, nothing is left and nobody gets an item or learns of one. -/
theorem World.run_discarding (rest : world.mailbox.actor.AtRest)
    (ending : world.mailbox.actor.ended = true ∨
      .discard ∈ (world.operateAll closing).1.mailbox.orders) :
    let late := world.run (closing :: back)
    late.1.mailbox.actor.remains = .discarded ∧
      (ofRun (closing :: back) late.2).notices.filterMap Notice.served? = [] := by
  intro late
  have told := world.run_told (closing :: back)
  obtain ⟨listening, others, first⟩ := world.told_orders closing back
  obtain ⟨-, remains, same⟩ := Actor.run_of_ending rest (ending.imp .inr fun asked =>
    exists_first (List.ne_nil_of_mem asked) ⟨others, first⟩)
  rw [told] at remains same
  have gone : (world.mailbox.actor.remains.run (world.told (closing :: back))).1 = .discarded ∧
      (world.mailbox.actor.remains.run (world.told (closing :: back))).2.filterMap
        Notice.served? = [] := by
    rcases ending with ended | asked
    · have discarded : world.mailbox.actor.remains = .discarded := if_pos ended
      rw [discarded]
      exact ⟨Remains.run_discarded _, Remains.run_served rfl _⟩
    · rw [← first]
      exact Remains.run_discard listening _ asked others
  exact ⟨remains.trans gone.1, (same _ fun _ => rfl).trans gone.2⟩

end

/-! ## What becomes of requests -/

/-- Where the input is closed, only a token can end what is pending. -/
theorem Quiet.pending_token {mailbox : Mailbox α} {requests : List (RequestId × Purpose)}
    (quiet : Quiet mailbox requests) (nobody : mailbox.actor.held = []) :
    ∀ pending ∈ mailbox.pending, (pending.id, .token) ∈ requests := by
  intro pending member
  obtain ⟨purpose, made, reason⟩ := quiet.reasons pending member
  simp only [Actor.held, List.append_eq_nil_iff] at nobody
  obtain ⟨⟨blocked, takers⟩, waiters⟩ := nobody
  cases purpose with
  | push => exact absurd reason.1 (blocked ▸ List.not_mem_nil)
  | take => exact absurd reason.1 (takers ▸ List.not_mem_nil)
  | wait => exact absurd reason.1 (waiters ▸ List.not_mem_nil)
  | token => exact made

/-- A request that is not pending has ended or was given up. -/
theorem Books.ended_or_abandoned {mailbox : Mailbox α} {history : History α}
    (books : Books mailbox history) {request : RequestId} (issued : request < mailbox.nextRequest)
    (waits : request ∉ mailbox.pending.map Pending.id) :
    request ∈ history.ended.map Prod.fst ∨ request ∈ history.abandoned := by
  have known := books.requests request
  have made : 0 < (List.range mailbox.nextRequest).count request :=
    List.count_pos_iff.mpr (List.mem_range.mpr issued)
  have gone := List.count_eq_zero.mpr waits
  rw [← List.count_pos_iff, ← List.count_pos_iff]
  omega

/-- Where the input is closed, every push, take and wait has ended or was given up. -/
theorem Quiet.ended_or_abandoned {mailbox : Mailbox α} {requests : List (RequestId × Purpose)}
    (quiet : Quiet mailbox requests) (nobody : mailbox.actor.held = []) {history : History α}
    (books : Books mailbox history) {request : RequestId × Purpose} (made : request ∈ requests)
    (other : request.2 ≠ .token) :
    request.1 ∈ history.ended.map Prod.fst ∨ request.1 ∈ history.abandoned := by
  have issued : request.1 < mailbox.nextRequest := by
    rw [← List.mem_range, ← quiet.numbered]
    exact List.mem_map_of_mem made
  refine books.ended_or_abandoned issued fun waits => other ?_
  obtain ⟨pending, member, same⟩ := List.mem_map.mp waits
  have once : (requests.map Prod.fst).Nodup := by
    rw [quiet.numbered]
    exact List.nodup_range
  have token := quiet.pending_token nobody pending member
  exact congrArg Prod.snd (List.inj_on_of_nodup_map once made token same.symm)

/-- Whoever fails in the later part of a run was told so in that part. -/
theorem World.founded_later {world : World α} (fresh : Tokened world.mailbox [])
    (front back : List (List (Operation α))) :
    Founded ((world.run front).1.Fires back)
      (tokensOf (front ++ back) (world.run (front ++ back)).2)
      (ofRun back ((world.run front).1.run back).2).ended := by
  obtain ⟨tokened, -⟩ := World.run_excused fresh front
  obtain ⟨-, founded⟩ := World.run_excused tokened back
  rw [List.nil_append, ← tokensOf_append] at founded
  exact founded

/-- How a mailbox whose input is closed winds up: from `early`, when the request to close or to
discard it has not been served yet or has been before, to `final`. What is told of the mailbox in
between is `later`, and `whole` is its whole history. -/
structure WoundUp (early final : Mailbox α) (requests : List (RequestId × Purpose))
    (excused : RequestId → Failure → Prop) (whole later : History α) : Prop where
  /-- The actor keeps nobody waiting, and only a token can end what is pending. -/
  nobody : final.actor.held = [] ∧ ∀ pending ∈ final.pending, (pending.id, .token) ∈ requests
  /-- Every push, take and wait has ended or has been given up. -/
  ended : ∀ request ∈ requests, request.2 ≠ .token →
    request.1 ∈ whole.ended.map Prod.fst ∨ request.1 ∈ whole.abandoned
  /-- No push ends well. -/
  refused : ∀ item ∈ whole.pushed, ∀ answer, (item.push, .ok answer) ∉ later.ended
  /-- The items that were buffered are handed over in order, each to the take that ends with it. The
  others stay in the buffer, unless the mailbox is discarded. -/
  handed : later.handed.map Prod.snd ++ later.cleared ++ final.actor.buffer = early.actor.buffer
  taken : later.handed.Perm later.taken
  kept : whole.givenUp = false → later.cleared = []
  /-- Without a buffered item, no take and no wait ends well. -/
  drained : early.actor.buffer = [] → ∀ request answer, (request, .ok answer) ∉ later.ended
  /-- Whoever fails was told that the mailbox does not run, or by its token to give up. -/
  reasons : ∀ request failure, (request, .error failure) ∈ later.ended →
    failure = .notRunning ∨ excused request failure

/-- What the books of a mailbox at rest say when from `early` on it has accepted no push and has
handed over no more than it had buffered. -/
theorem WoundUp.of_books {early final : Mailbox α} {requests : List (RequestId × Purpose)}
    {excused : RequestId → Failure → Prop} {before later : History α} (books : Books early before)
    (seen : early.answers = []) (whole : Books final (before ++ later))
    (unseen : final.answers = []) (quiet : Quiet final requests) (nobody : final.actor.held = [])
    (unaccepted : later.notices.filterMap Notice.accepted? = [])
    (items : later.handed.map Prod.snd ++ later.cleared ++ final.actor.buffer = early.actor.buffer)
    (drained : early.actor.buffer = [] → later.notices.filterMap Notice.served? = [])
    (reasons : ∀ request failure, (request, .error failure) ∈ later.ended →
      failure = .notRunning ∨ excused request failure) :
    WoundUp early final requests excused (before ++ later) later where
  nobody := ⟨nobody, quiet.pending_token nobody⟩
  ended _ made other := quiet.ended_or_abandoned nobody whole made other
  refused _ pushed answer := books.refused_later seen whole unseen unaccepted pushed answer
  handed := items
  taken := books.handed_later seen whole unseen
  kept kept := whole.cleared_later kept
  drained empty := books.nobody_well seen whole unseen unaccepted (drained empty)
  reasons := reasons

/-- Every mailbox winds up once it is asked to, or once its last writer is gone. When its actor is
told to close the input or to give up, it refuses everybody who waits; from then on it shows no more
than its remains do, and keeps nobody waiting. Whatever clients do with the mailbox, it winds up from
the step on in which it is asked to or in which no writer is left, and once it is discarded nothing
is left of it and no request ends well. -/
theorem run_windsUp (capacity : Nat) (policy : Policy) (slots : Nat) :
    (∀ (history : Told α) (listening : RequestId → Bool) (events : Told α),
      let actor := ((Actor.new capacity policy).run history).1
      actor.trace ((listening, .close) :: events) =
          ⟨Actor.answerAll listening actor.held .notRunning, actor.buffer, actor.buffer.length,
            actor.discarded⟩ :: actor.remains.trace actor.discarded events ∧
        actor.trace ((listening, .discard) :: events) =
            ⟨actor.buffer.map .cleared ++ Actor.answerAll listening actor.held .notRunning, [], 0,
              actor.discarded⟩ :: Remains.discarded.trace actor.discarded events ∧
          ∀ control : Control,
            ((actor.handle listening control.event).1.run events).1.held = []) ∧
    ∀ (front : List (List (Operation α))) (closing : List (Operation α))
        (back : List (List (Operation α))),
      let start : World α := World.start capacity policy slots
      let early := (start.run front).1
      let whole := start.run (front ++ closing :: back)
      let later := ofRun (closing :: back) (early.run (closing :: back)).2
      let asked := early.operateAll closing
      (early.mailbox.actor.Shut ∨ .close ∈ closing ∨ .discard ∈ closing ∨
          asked.1.mailbox.handles.writers = 0 →
        WoundUp early.mailbox whole.1.mailbox (requestsOf (front ++ closing :: back) whole.2)
          (fun request failure => ∃ token,
            (request, token) ∈ tokensOf (front ++ closing :: back) whole.2 ∧
              early.Fires (closing :: back) token failure)
          (ofRun (front ++ closing :: back) whole.2) later) ∧
        (early.mailbox.actor.ended = true ∨ (ofOperations closing asked.2).givenUp = true →
          whole.1.mailbox.depth = 0 ∧ ∀ request answer, (request, .ok answer) ∉ later.ended) := by
  refine ⟨fun history listening events => ?_, fun front closing back => ?_⟩
  · intro actor
    have rest : actor.AtRest := Actor.run_atRest _ (Actor.new_atRest capacity policy) history
    refine ⟨Actor.trace_close listening rest events, Actor.trace_discard listening rest events, ?_⟩
    intro control
    have after := Actor.handle_atRest listening actor rest control.event
    have final := Actor.run_atRest _ after events
    exact final.held_of_shut
      (Actor.run_of_shut after (Actor.handle_control listening rest control).1 events).1
  · intro start early whole later asked
    have opened : Books start.mailbox History.empty := Books.fresh capacity policy slots
    obtain ⟨books, seen⟩ := opened.run rfl front
    obtain ⟨final, unseen⟩ := opened.run rfl (front ++ closing :: back)
    have quiet : Quiet whole.1.mailbox (requestsOf (front ++ closing :: back) whole.2) :=
      World.quiet_run capacity policy slots (front ++ closing :: back)
    have fresh : start.mailbox.Tended := Tended.fresh capacity policy slots
    have tended := fresh.run front
    have rest := tended.rest
    have operated := tended.operateAll closing
    have same : asked.1.mailbox.actor = early.mailbox.actor := early.operateAll_actor closing
    have cut : whole.1 = (early.run (closing :: back)).1 := by
      rw [show whole = _ from start.run_append front (closing :: back)]
    have told : ofRun (front ++ closing :: back) whole.2 =
        ofRun front (start.run front).2 ++ later :=
      ofRun_append start front (closing :: back)
    rw [History.empty_append] at books final
    have parted : Books whole.1.mailbox (ofRun front (start.run front).2 ++ later) := told ▸ final
    refine ⟨fun ending => ?_, fun ending => ?_⟩
    · -- What has been served before shows in `Shut`; what has not, and the end of the queue when
      -- the last writer is gone, is found among the orders.
      have met : early.mailbox.actor.Shut ∨ asked.1.mailbox.orders ≠ [] := by
        rcases ending with shut | close | discard | gone
        · exact .inl shut
        · exact same ▸ operated.ending (early.operateAll_ending closing (.inr (.inl close)))
        · exact same ▸ operated.ending (early.operateAll_ending closing (.inr (.inr discard)))
        · exact same ▸ operated.ending (.inr gone)
      obtain ⟨shut, unaccepted, items, drained⟩ := World.run_ending back rest met
      have nobody : whole.1.mailbox.actor.held = [] := quiet.rest.held_of_shut (cut ▸ shut)
      have untokened : Tokened start.mailbox [] := fun _ member => absurd member List.not_mem_nil
      rw [told]
      exact .of_books books seen parted unseen quiet nobody unaccepted (cut ▸ items) drained
        (World.founded_later untokened front (closing :: back))
    · have met := ending.imp_right fun given =>
        operated.discard_mem_orders (early.operateAll_discard closing (.inr given))
      obtain ⟨-, unaccepted, -, -⟩ :=
        World.run_ending back rest (met.imp .inr List.ne_nil_of_mem)
      obtain ⟨remains, unserved⟩ := World.run_discarding back rest met
      refine ⟨?_, books.nobody_well seen parted unseen unaccepted unserved⟩
      have empty : whole.1.mailbox.actor.buffer = [] := by
        rw [← quiet.rest.items_remains, cut, remains]
        rfl
      rw [depth, quiet.rest.published, empty, List.length_nil]

/-- A mailbox of one place takes a value and lets another push wait; then its only writer is
dropped, behind a new reader, and two takes come. -/
theorem run_windsUp_lastWriter :
    let start : World Char := World.start 1 .block 1
    let early := (start.run [[.push 'a', .push 'b']]).1
    let closing : List (Operation Char) := [.changeHandles .newReader, .changeHandles .dropWriter]
    let steps := [[.push 'a', .push 'b']] ++ closing :: [[.take, .take]]
    let whole := start.run steps
    early.mailbox.actor.blocked = [⟨1, 'b'⟩] ∧
      (early.operateAll closing).1.mailbox.handles = ⟨0, 1⟩ ∧
        WoundUp early.mailbox whole.1.mailbox (requestsOf steps whole.2)
          (fun request failure => ∃ token, (request, token) ∈ tokensOf steps whole.2 ∧
            early.Fires (closing :: [[.take, .take]]) token failure)
          (ofRun steps whole.2)
          (ofRun (closing :: [[.take, .take]]) (early.run (closing :: [[.take, .take]])).2) :=
  ⟨rfl, rfl, ((run_windsUp 1 .block 1).2 [[.push 'a', .push 'b']]
    [.changeHandles .newReader, .changeHandles .dropWriter] [[.take, .take]]).1
      (.inr (.inr (.inr rfl)))⟩

end CommandScript.Mailbox
