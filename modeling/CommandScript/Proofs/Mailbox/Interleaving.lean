import CommandScript.Proofs.Mailbox.Confluence

/-!
# Pushes and takes in any order

An open actor that lets pushes wait comes to the same state, and gives every request the same
answer, in whatever way its pushes and takes are interleaved, as long as nobody gives up. What it
comes to is told by the two sequences and the capacity alone: the takes get the items one to one, as
many of the items left over as there is room for are buffered, and the others wait
(`CommandScript.Mailbox.Actor.run_exchanges`).
-/

namespace CommandScript.Mailbox

variable {α : Type}

/-- A client gets an item, or learns that its push has been accepted. -/
inductive Notice.IsExchange : Notice α → Prop where
  | accepted (request : RequestId) : IsExchange (.answered request .accepted)
  | delivered (request : RequestId) (item : Item α) :
    IsExchange (.answered request (.delivered item))

/-- Pushes and takes whose clients are there when they are looked at, and listen as long as any of
them may be answered. -/
structure Patient (told : Told α) : Prop where
  calls : ∀ entry ∈ told,
    (∃ item, entry.2 = .push item true) ∨ ∃ request, entry.2 = .take request true
  heard : ∀ entry ∈ told, ∀ other ∈ told, ∀ request,
    other.2.request? = some request → entry.1 request = true

/-- Everybody listens. -/
def everybody : RequestId → Bool :=
  fun _ => true

/-- Where everybody listens, all items are live. -/
theorem live_everybody (items : List (Item α)) : live everybody items = items :=
  List.filter_eq_self.mpr fun _ _ => rfl

theorem filter_everybody (requests : List RequestId) : requests.filter everybody = requests :=
  List.filter_eq_self.mpr fun _ _ => rfl

namespace Actor

variable {listening : RequestId → Bool} {before middle after : Actor α}
  {notices told more : List (Notice α)}

/-! ## Nothing but exchanges -/

/-- A small step gives notice of exchanges only. -/
theorem SmallStep.exchanges (step : SmallStep listening before after notices)
    (isOpen : before.closed = false) (nobody : before.waiters = []) :
    ∀ notice ∈ notices, notice.IsExchange := by
  cases step with
  | enter first room hears => simpa using Notice.IsExchange.accepted _
  | passPush first deaf => simp
  | wake occupied => simp [nobody, answerAll]
  | deliver buffer first hears => simpa using Notice.IsExchange.delivered _ _
  | passTaker first deaf => simp
  | fail drained closed =>
      rw [isOpen] at closed
      cases closed

theorem Course.exchanges (course : Course listening before after notices)
    (isOpen : before.closed = false) (nobody : before.waiters = []) :
    ∀ notice ∈ notices, notice.IsExchange := by
  induction course with
  | done actor => simp
  | step first rest ih =>
      have front := first.lossless isOpen nobody
      have later := ih (front.same.closed.trans isOpen) front.waiters
      intro notice member
      exact (List.mem_append.mp member).elim (first.exchanges isOpen nobody notice) (later notice)

/-- A push gives notice of exchanges only. -/
theorem onPush_exchanges (lasting : before.Lasting) {item : Item α}
    (hears : listening item.push = true) :
    ∀ notice ∈ (before.onPush listening item).2, notice.IsExchange := by
  by_cases room : before.buffer.length < before.capacity
  · have settled := (settle_course listening (before.withBuffer (before.buffer ++ [item]))).exchanges
      lasting.isOpen lasting.nobody
    simp only [onPush, lasting.isOpen, room, accept_of_heard _ hears, if_true, Bool.false_eq_true,
      if_false, List.cons_append, List.nil_append, List.mem_cons]
    rintro notice (rfl | later)
    · exact .accepted _
    · exact settled notice later
  · have settled := (settle_course listening
      { before with blocked := before.blocked ++ [item] }).exchanges lasting.isOpen lasting.nobody
    simpa only [onPush, lasting.isOpen, room, overflow, lasting.policy, Bool.false_eq_true,
      if_false, List.nil_append] using settled

/-- A take gives notice of exchanges only. -/
theorem onTake_exchanges (lasting : before.Lasting) (request : RequestId) :
    ∀ notice ∈ (before.onTake listening request).2, notice.IsExchange :=
  (settle_course listening _).exchanges lasting.isOpen lasting.nobody

/-- A push or a take of a client that listens tells of nothing but exchanges. -/
theorem handle_exchanges (lasting : before.Lasting) {event : Event α}
    (call : event.IsCall listening) :
    ∀ notice ∈ (before.handle listening event).2, notice.IsExchange := by
  cases call with
  | push item =>
      cases hears : listening item.push with
      | true =>
          simpa only [handle, lasting.running, Bool.false_eq_true, if_false, if_true] using
            onPush_exchanges lasting hears
      | false => simp [handle, lasting.running]
  | take request =>
      cases hears : listening request with
      | true =>
          simpa only [handle, lasting.running, Bool.false_eq_true, if_false, if_true] using
            onTake_exchanges lasting request
      | false => simp [handle, lasting.running]

/-! ## Runs of clients that do not give up -/

/-- From one state of an actor to another, with everybody listening, nothing is lost, and nothing
is told but who has got or handed in an item. -/
structure Exchanged (events : List (Event α)) (before after : Actor α)
    (notices : List (Notice α)) : Prop where
  lossless : Lossless everybody events before after notices
  exchanges : ∀ notice ∈ notices, notice.IsExchange
  discarded : after.discarded = before.discarded
  held : ∀ request ∈ after.held,
    request ∈ before.held ∨ request ∈ events.filterMap Event.request?

/-- Exchanges in two stretches are exchanges in both together. -/
theorem Exchanged.trans {first second : List (Event α)}
    (front : Exchanged first before middle told) (back : Exchanged second middle after more) :
    Exchanged (first ++ second) before after (told ++ more) where
  lossless := front.lossless.trans back.lossless
  exchanges := fun notice member =>
    (List.mem_append.mp member).elim (front.exchanges notice) (back.exchanges notice)
  discarded := back.discarded.trans front.discarded
  held := fun request member => by
    rw [List.filterMap_append, List.mem_append]
    rcases back.held request member with earlier | brought
    · exact (front.held request earlier).imp_right .inl
    · exact .inr (.inr brought)

/-- No item is lost where all that is told is who has got or handed in one. -/
theorem filterMap_eviction_of_exchanges (exchanges : ∀ notice ∈ notices, notice.IsExchange) :
    notices.filterMap Notice.eviction? = [] := by
  rw [List.filterMap_eq_nil_iff]
  intro notice member
  cases exchanges notice member <;> rfl

/-- A push or a take of a client that listens, as all those do that have to wait. -/
theorem handle_exchanged (lasting : before.Lasting) {event : Event α}
    (call : event.IsCall listening)
    (heard : ∀ request, request ∈ before.held ∨ event.request? = some request →
      listening request = true) :
    Exchanged [event] before (before.handle listening event).1
      (before.handle listening event).2 := by
  have exchanges := handle_exchanges lasting call
  have truthful : event.Truthful listening := by
    cases call with
    | push item => exact id
    | take request => trivial
  have moves := handle_moves listening before event truthful
  have held (request : RequestId) (member : request ∈ (before.handle listening event).1.held) :
      request ∈ before.held ∨ request ∈ [event].filterMap Event.request? := by
    have queueing := moves.queueing request
    have here := List.count_pos_iff.mpr member
    rw [← List.count_pos_iff, ← List.count_pos_iff]
    omega
  have brings {request : RequestId} (member : request ∈ [event].filterMap Event.request?) :
      event.request? = some request := by
    simpa [List.mem_filterMap] using member
  refine
    { lossless := (handle_lossless lasting call).congr fun request known => heard request ?_
      exchanges := exchanges
      discarded := by rw [moves.counted, filterMap_eviction_of_exchanges exchanges]; rfl
      held := held }
  rcases known with earlier | later | brought
  · exact .inl earlier
  · exact (held request later).imp_right brings
  · exact .inr (brings brought)

/-- Pushes and takes lose nothing, however they are interleaved. -/
theorem run_exchanged (lasting : before.Lasting) {told : Told α}
    (calls : ∀ entry ∈ told,
      (∃ item, entry.2 = .push item true) ∨ ∃ request, entry.2 = .take request true)
    (heard : ∀ entry ∈ told, ∀ request,
      request ∈ before.held ∨ request ∈ (told.map Prod.snd).filterMap Event.request? →
        entry.1 request = true) :
    (before.run told).1.Lasting ∧
      Exchanged (told.map Prod.snd) before (before.run told).1 (before.run told).2 := by
  induction told generalizing before with
  | nil =>
      refine ⟨lasting, .remaining (.refl before) lasting.nobody rfl (List.append_nil _).symm
        (List.append_nil _).symm, fun _ member => absurd member List.not_mem_nil, rfl,
        fun _ member => .inl member⟩
  | cons entry rest ih =>
      obtain ⟨listening, event⟩ := entry
      have now := heard _ List.mem_cons_self
      have own {request : RequestId} (brings : event.request? = some request) :
          listening request = true :=
        now request (.inr (List.mem_filterMap.mpr ⟨event, List.mem_cons_self, brings⟩))
      have call : event.IsCall listening := by
        rcases calls _ List.mem_cons_self with ⟨item, rfl⟩ | ⟨request, rfl⟩
        · have heeded : listening item.push = true := own rfl
          exact heeded ▸ .push item
        · have heeded : listening request = true := own rfl
          exact heeded ▸ .take request
      have first := handle_exchanged lasting call fun request known =>
        known.elim (fun waits => now request (.inl waits)) own
      obtain ⟨final, later⟩ := ih (lasting.handle call)
        (fun other member => calls other (List.mem_cons_of_mem _ member))
        fun other member request known => by
          refine heard other (List.mem_cons_of_mem _ member) request ?_
          rw [List.map_cons, ← List.singleton_append, List.filterMap_append, List.mem_append]
          rcases known with waits | brought
          · exact (first.held request waits).imp_right .inl
          · exact .inr (.inr brought)
      exact ⟨final, first.trans later⟩

/-! ## What the two sequences decide -/

/-- The actor that some items and some takes lead to. -/
def exchanged (capacity : Nat) (items : List (Item α)) (takes : List RequestId) : Actor α :=
  { (new capacity .block).withBuffer ((items.drop takes.length).take (atLeastOne capacity)) with
    blocked := (items.drop takes.length).drop (atLeastOne capacity)
    takers := takes.drop items.length }

/-- What clients are told that hand in items and ask for them. -/
def exchangeAnswers (capacity : Nat) (items : List (Item α)) (takes : List RequestId) :
    List (RequestId × Answer α) :=
  (takes.zip items).map (fun entry => (entry.1, .delivered entry.2)) ++
    (items.take (takes.length + atLeastOne capacity)).map fun item => (item.push, .accepted)

/-- Who is told of nothing but exchanges has got an item or handed in one. -/
theorem answers_of_exchanges (exchanges : ∀ notice ∈ notices, notice.IsExchange) :
    (notices.filterMap Notice.answer?).Perm
      ((notices.filterMap Notice.handed?).map (fun entry => (entry.1, .delivered entry.2)) ++
        (notices.filterMap Notice.accepted?).map fun request => (request, .accepted)) := by
  induction notices with
  | nil => exact .refl _
  | cons notice rest ih =>
      have later := ih fun other member => exchanges other (List.mem_cons_of_mem _ member)
      cases exchanges notice List.mem_cons_self with
      | accepted request => exact (later.cons _).trans List.perm_middle.symm
      | delivered request item => exact later.cons _

/-- What a fresh actor comes to with the pushes and takes of clients that do not give up. -/
structure Exchanges (capacity : Nat) (items : List (Item α)) (takes : List RequestId)
    (actor : Actor α) (notices : List (Notice α)) : Prop where
  state : actor = exchanged capacity items takes
  /-- The takes get the items in order, as far as both reach. -/
  handed : notices.filterMap Notice.handed? = takes.zip items
  /-- As many pushes are acknowledged, in order, as there are takes and places. -/
  accepted : notices.filterMap Notice.accepted? =
    (items.take (takes.length + atLeastOne capacity)).map Item.push
  /-- Nothing else is told. -/
  exchanges : ∀ notice ∈ notices, notice.IsExchange

/-- The answers that a run gives do not depend on how it interleaves. -/
theorem Exchanges.answers {capacity : Nat} {items : List (Item α)} {takes : List RequestId}
    {actor : Actor α} (exchanges : Exchanges capacity items takes actor notices) :
    (notices.filterMap Notice.answer?).Perm (exchangeAnswers capacity items takes) := by
  have answers := answers_of_exchanges exchanges.exchanges
  rw [exchanges.handed, exchanges.accepted, List.map_map] at answers
  exact answers

/-- A fresh mailbox that lets pushes wait is lasting. -/
theorem new_lasting (capacity : Nat) : Lasting (new capacity .block : Actor α) :=
  ⟨new_atRest capacity .block, rfl, rfl, rfl, rfl⟩

/-- The fields of an actor in which nobody waits for word of an item determine it. -/
theorem eq_exchanged {capacity : Nat} {items : List (Item α)} {takes : List RequestId}
    {actor : Actor α} (same : SameMailbox (new capacity .block) actor)
    (buffer : actor.buffer = (items.drop takes.length).take (atLeastOne capacity))
    (blocked : actor.blocked = (items.drop takes.length).drop (atLeastOne capacity))
    (takers : actor.takers = takes.drop items.length) (waiters : actor.waiters = [])
    (published : actor.depth = actor.buffer.length) (discarded : actor.discarded = 0) :
    actor = exchanged capacity items takes := by
  obtain ⟨capacity, policy, closed, ended⟩ := same
  rw [buffer] at published
  cases actor
  subst capacity policy closed ended buffer blocked takers waiters published discarded
  rfl

/-- What clients that do not give up ask for decides what a fresh actor comes to. -/
theorem run_exchanges (capacity : Nat) {told : Told α} (patient : Patient told) :
    Exchanges capacity (itemsOf told) (takersOf told) ((new capacity .block).run told).1
      ((new capacity .block).run told).2 := by
  obtain ⟨lasting, exchanged⟩ := run_exchanged (new_lasting (α := α) capacity) patient.calls
    fun entry member request known => by
      rcases known with waits | brought
      · cases waits
      · obtain ⟨event, among, brings⟩ := List.mem_filterMap.mp brought
        obtain ⟨other, present, rfl⟩ := List.mem_map.mp among
        exact patient.heard entry member other present request brings
  have outcome := exchanged.lossless.outcome lasting.rest
  simp only [live_everybody, filter_everybody] at outcome
  obtain ⟨handed, buffer, blocked, takers⟩ := outcome
  have blocked : ((new capacity .block).run told).1.blocked =
      ((itemsOf told).drop (takersOf told).length).drop (atLeastOne capacity) := blocked
  have accepted := exchanged.lossless.accepted
  rw [live_everybody, live_everybody, live_everybody, blocked, List.drop_drop] at accepted
  have whole : (itemsOf told).map Item.push = _ :=
    congrArg (List.map Item.push) (List.take_append_drop
      ((takersOf told).length + atLeastOne capacity) (itemsOf told)).symm
  rw [List.map_append] at whole
  exact
    { state := eq_exchanged exchanged.lossless.same buffer blocked takers
        exchanged.lossless.waiters lasting.rest.published exchanged.discarded
      handed := handed
      accepted := List.append_cancel_right (accepted.trans whole)
      exchanges := exchanged.exchanges }

end Actor

/-! ## Who is answered how -/

/-- What clients are told whose requests are all different. -/
structure AnswersInTurn (capacity : Nat) (items : List (Item α)) (takes : List RequestId)
    (answers : List (RequestId × Answer α)) : Prop where
  /-- A take gets the item that has the same place among the items as the take among the takes, and
  nothing else. -/
  taken : ∀ (place : Nat) (request : RequestId), takes[place]? = some request →
    ∀ answer, (request, answer) ∈ answers ↔
      ∃ item, items[place]? = some item ∧ answer = .delivered item
  /-- A push is acknowledged just if there is a take or a place for it, and gets no other answer. -/
  acknowledged : ∀ (place : Nat) (item : Item α), items[place]? = some item →
    ∀ answer, (item.push, answer) ∈ answers ↔
      answer = .accepted ∧ place < takes.length + atLeastOne capacity

/-- What stands in two places of a list without repetition stands in one. -/
theorem place_unique {β : Type} {list : List β} (once : list.Nodup) {element : β} {place other : Nat}
    (here : list[place]? = some element) (there : list[other]? = some element) : place = other := by
  obtain ⟨bound, -⟩ := List.getElem?_eq_some_iff.mp here
  exact (List.getElem?_inj bound once).mp (here.trans there.symm)

/-- A take gets the item in its place, and a push is accepted when there is room or a take for it.
-/
theorem mem_exchangeAnswers {capacity : Nat} {items : List (Item α)} {takes : List RequestId}
    {request : RequestId} {answer : Answer α} :
    (request, answer) ∈ Actor.exchangeAnswers capacity items takes ↔
      (∃ item, (request, item) ∈ takes.zip items ∧ answer = .delivered item) ∨
        ∃ item ∈ items.take (takes.length + atLeastOne capacity),
          item.push = request ∧ answer = .accepted := by
  simp only [Actor.exchangeAnswers, List.mem_append, List.mem_map, Prod.exists, Prod.mk.injEq]
  refine or_congr ⟨?_, ?_⟩ ⟨?_, ?_⟩
  · rintro ⟨_, item, member, rfl, rfl⟩
    exact ⟨item, member, rfl⟩
  · rintro ⟨item, member, rfl⟩
    exact ⟨request, item, member, rfl, rfl⟩
  · rintro ⟨item, member, rfl, rfl⟩
    exact ⟨item, member, rfl, rfl⟩
  · rintro ⟨item, member, rfl, rfl⟩
    exact ⟨item, member, rfl, rfl⟩

/-- In whatever order the answers come, they go to the requests in turn. -/
theorem answersInTurn {capacity : Nat} {items : List (Item α)} {takes : List RequestId}
    {answers : List (RequestId × Answer α)}
    (perm : answers.Perm (Actor.exchangeAnswers capacity items takes))
    (distinct : (items.map Item.push ++ takes).Nodup) :
    AnswersInTurn capacity items takes answers := by
  obtain ⟨pushes, called, apart⟩ := List.nodup_append.mp distinct
  have foreign {item : Item α} (pushed : item ∈ items) : item.push ∉ takes :=
    fun taken => apart _ (List.mem_map_of_mem pushed) _ taken rfl
  refine ⟨fun place request here answer => ?_, fun place item here answer => ?_⟩
  · rw [perm.mem_iff, mem_exchangeAnswers]
    constructor
    · rintro (⟨item, paired, rfl⟩ | ⟨item, admitted, rfl, -⟩)
      · obtain ⟨other, also⟩ := List.mem_iff_getElem?.mp paired
        obtain ⟨again, there⟩ := List.getElem?_zip_eq_some.mp also
        obtain rfl := place_unique called here again
        exact ⟨item, there, rfl⟩
      · exact absurd (List.mem_of_getElem? here) (foreign (List.mem_of_mem_take admitted))
    · rintro ⟨item, there, rfl⟩
      exact .inl ⟨item, List.mem_of_getElem? (List.getElem?_zip_eq_some.mpr ⟨here, there⟩), rfl⟩
  · have own : (items.map Item.push)[place]? = some item.push := by
      rw [List.getElem?_map, here, Option.map_some]
    rw [perm.mem_iff, mem_exchangeAnswers]
    constructor
    · rintro (⟨other, paired, -⟩ | ⟨other, admitted, same, rfl⟩)
      · exact absurd (List.of_mem_zip paired).1 (foreign (List.mem_of_getElem? here))
      · obtain ⟨there, also⟩ := List.mem_iff_getElem?.mp admitted
        rw [List.getElem?_take] at also
        split at also
        · rename_i early
          have again : (items.map Item.push)[there]? = some item.push := by
            rw [List.getElem?_map, also, Option.map_some, same]
          exact ⟨rfl, place_unique pushes own again ▸ early⟩
        · cases also
    · rintro ⟨rfl, early⟩
      have admitted : (items.take (takes.length + atLeastOne capacity))[place]? = some item := by
        rw [List.getElem?_take, if_pos early, here]
      exact .inr ⟨item, List.mem_of_getElem? admitted, rfl, rfl⟩

/-- The order of pushes against takes does not matter: an actor of any capacity that lets pushes
wait comes to the same state with the same pushes and the same takes, in whatever way they are
interleaved, and gives every request the same answer. Both are decided by the items, the takes and
the capacity, and where all requests are different the takes get the items in turn. -/
theorem run_interleaving (capacity : Nat) {told other : Told α} (first : Patient told)
    (second : Patient other) (items : itemsOf told = itemsOf other)
    (takes : takersOf told = takersOf other) :
    let left := (Actor.new capacity .block).run told
    let right := (Actor.new capacity .block).run other
    left.1 = right.1 ∧
      (left.2.filterMap Notice.answer?).Perm (right.2.filterMap Notice.answer?) ∧
      Actor.Exchanges capacity (itemsOf told) (takersOf told) left.1 left.2 ∧
      (((itemsOf told).map Item.push ++ takersOf told).Nodup →
        AnswersInTurn capacity (itemsOf told) (takersOf told) (left.2.filterMap Notice.answer?)) := by
  intro left right
  have exchanges := Actor.run_exchanges capacity first
  have others := Actor.run_exchanges capacity second
  rw [← items, ← takes] at others
  exact ⟨exchanges.state.trans others.state.symm, exchanges.answers.trans others.answers.symm,
    exchanges, answersInTurn exchanges.answers⟩

/-- A take that comes before or behind two pushes gets the first of their values. -/
theorem run_interleaving_early :
    let told : Told Char :=
      [(fun _ => true, .push ⟨0, 'a'⟩ true), (fun _ => true, .push ⟨1, 'b'⟩ true),
        (fun _ => true, .take 2 true)]
    let other : Told Char :=
      [(fun _ => true, .take 2 true), (fun _ => true, .push ⟨0, 'a'⟩ true),
        (fun _ => true, .push ⟨1, 'b'⟩ true)]
    Patient told ∧ Patient other ∧ itemsOf told = itemsOf other ∧ takersOf told = takersOf other ∧
      ((Actor.new 1 .block).run told).1 = ((Actor.new 1 .block).run other).1 ∧
        ((Actor.new 1 .block).run told).1 = Actor.exchanged 1 [⟨0, 'a'⟩, ⟨1, 'b'⟩] [2] ∧
          (2, .delivered ⟨0, 'a'⟩) ∈
            ((Actor.new 1 .block).run told).2.filterMap Notice.answer? := by
  intro told other
  have first : Patient told := ⟨by simp [told], by simp [told]⟩
  have second : Patient other := ⟨by simp [other], by simp [other]⟩
  obtain ⟨same, -, exchanges, inTurn⟩ := run_interleaving 1 first second rfl rfl
  exact ⟨first, second, rfl, rfl, same, exchanges.state,
    ((inTurn (by decide)).taken 0 2 rfl _).mpr ⟨_, rfl, rfl⟩⟩

end CommandScript.Mailbox
