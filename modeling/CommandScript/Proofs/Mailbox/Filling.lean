import CommandScript.Proofs.Mailbox.Overflow
import CommandScript.Proofs.Mailbox.Slots

/-!
# Mailboxes that are only filled

In a run in which values are pushed and nothing is taken, every client listens until its push is
acknowledged, however the pushes come in steps and however many of them the queue holds
(`CommandScript.Mailbox.World.fed_run`). The actor therefore gets all of them, and its policy alone
decides which values the mailbox ends with.
-/

namespace CommandScript.Mailbox

variable {α : Type} {mailbox : Mailbox α}

open History

/-- Nothing has been asked of a mailbox but pushes, and whoever has a push there listens; there is
a writer that can push more. -/
structure Fed (mailbox : Mailbox α) : Prop where
  books : ∃ history, Books mailbox history ∧ history.givenUp = false
  seen : mailbox.answers = []
  orders : mailbox.orders = []
  writers : 0 < mailbox.handles.writers
  takes : mailbox.takes = .empty
  waits : mailbox.waits = .empty
  heard : ∀ request ∈ mailbox.standing, mailbox.listening request = true

/-! ## A further push -/

/-- Where nobody stands in line, nobody enters a queue. -/
theorem enter_of_empty (takes : mailbox.takes = .empty) (waits : mailbox.waits = .empty)
    (request : RequestId) : mailbox.enter request = mailbox := by
  have nobody : (ReadQueue.empty.enter mailbox.slots mailbox.actor.ended request) =
      (ReadQueue.empty, false) := ReadQueue.enter_of_nil _ rfl
  cases mailbox
  subst takes waits
  simp only [enter, nobody, Bool.or_self, Bool.false_eq_true, if_false]

/-- The mailbox with other pushes before its actor. -/
def withPushes (mailbox : Mailbox α) (pushes overflow : List (Item α)) : Mailbox α :=
  { mailbox with pushes := pushes, overflow := overflow }

/-- A push is put into its queue or aside, as long as the actor runs. -/
theorem putPush_of_running (running : mailbox.actor.ended = false) (value : α) (id : RequestId) :
    ∃ pushes overflow, putPush value mailbox id = mailbox.withPushes pushes overflow ∧
      ∀ item ∈ pushes ++ overflow, item ∈ mailbox.pushes ++ mailbox.overflow ∨ item.push = id := by
  unfold putPush
  rw [running, if_neg Bool.false_ne_true]
  split
  · refine ⟨mailbox.pushes ++ [⟨id, value⟩], mailbox.overflow, rfl, fun item member => ?_⟩
    simp only [List.mem_append, List.mem_singleton] at member ⊢
    rcases member with (queued | rfl) | aside
    · exact .inl (.inl queued)
    · exact .inr rfl
    · exact .inl (.inr aside)
  · refine ⟨mailbox.pushes, mailbox.overflow ++ [⟨id, value⟩], rfl, fun item member => ?_⟩
    simp only [List.mem_append, List.mem_singleton] at member ⊢
    rcases member with queued | aside | rfl
    · exact .inl (.inl queued)
    · exact .inl (.inr aside)
    · exact .inr rfl

/-- As long as there is a writer, it can push. -/
theorem World.operate_push {world : World α} (writers : 0 < world.mailbox.handles.writers)
    (value : α) : world.operate (.push value) = world.perform (.push value) :=
  if_pos (decide_eq_true writers)

namespace Fed

theorem running (fed : Fed mailbox) : mailbox.actor.ended = false := by
  obtain ⟨history, books, kept⟩ := fed.books
  exact (books.intact kept).2.1

/-- A push is put into its queue or aside, and nothing else happens at once. -/
theorem push_eq (fed : Fed mailbox) (fired? : TokenId → Option Failure) (value : α) :
    ∃ pushes overflow,
      (mailbox.push fired? value none).1 = (mailbox.register none).withPushes pushes overflow ∧
        ∀ item ∈ pushes ++ overflow,
          item ∈ mailbox.pushes ++ mailbox.overflow ∨ item.push = mailbox.nextRequest := by
  have running : (mailbox.register none).actor.ended = false := fed.running
  obtain ⟨pushes, overflow, put, brought⟩ :=
    putPush_of_running running value mailbox.nextRequest
  have unanswered : ((mailbox.register none).withPushes pushes overflow).Unanswered :=
    ⟨fed.seen, fed.waits, fun _ => congrArg ReadQueue.line fed.takes⟩
  have takes : ((mailbox.register none).withPushes pushes overflow).takes = .empty := fed.takes
  refine ⟨pushes, overflow, ?_, brought⟩
  rw [push, issue_eq, put, unanswered.poll]
  exact enter_of_empty takes unanswered.waits mailbox.nextRequest

/-- The client of a further push listens, as all others do. -/
theorem operate {world : World α} (fed : Fed world.mailbox) (value : α) :
    Fed (world.operate (.push value)).1.mailbox := by
  obtain ⟨history, books, kept⟩ := fed.books
  obtain ⟨operated, seen⟩ := books.operate fed.seen (.push value)
  obtain ⟨pushes, overflow, same, brought⟩ := fed.push_eq world.signals.fired? value
  have pushed : (world.operate (.push value)).1.mailbox =
      (world.mailbox.register none).withPushes pushes overflow := by
    rw [World.operate_push fed.writers]
    exact same
  have told : (ofOperation (.push value) (world.operate (.push value)).2).givenUp = false := rfl
  rw [pushed] at operated seen ⊢
  refine ⟨⟨_, operated, by rw [givenUp_append, kept, told]; rfl⟩, seen, fed.orders, fed.writers,
    fed.takes, fed.waits, fun request stands => ?_⟩
  by_cases new : request = world.mailbox.nextRequest
  · exact (listening_iff _ request).mpr (by simp [withPushes, register, new])
  · refine (register_listening world.mailbox none new).trans (fed.heard request ?_)
    have moved : request ∈ (pushes ++ overflow).map Item.push →
        request ∈ (world.mailbox.pushes ++ world.mailbox.overflow).map Item.push := by
      intro member
      obtain ⟨item, present, rfl⟩ := List.mem_map.mp member
      exact List.mem_map_of_mem ((brought item present).resolve_right new)
    simp only [standing, withPushes, register, List.map_append, List.mem_append]
      at stands moved ⊢
    tauto

/-- A mailbox may be fed any number of values. -/
theorem operateAll {world : World α} (fed : Fed world.mailbox) (values : List α) :
    Fed (world.operateAll (values.map Operation.push)).1.mailbox := by
  induction values generalizing world with
  | nil => exact fed
  | cons value rest ih => exact ih (fed.operate value)

/-! ## Coming to rest -/

variable {fired? : TokenId → Option Failure}

/-- Where nobody takes, nobody does after a look at all requests. -/
theorem takes_pollAll (empty : mailbox.takes = .empty) :
    (mailbox.pollAll fired?).1.takes = .empty := by
  refine pollEach_induct (fun mailbox => mailbox.takes = .empty) (fun middle pending empty => ?_)
    empty mailbox.pending
  have entered : (middle.enter pending.id).takes = .empty := by
    rw [enter_takes, empty]
    exact congrArg Prod.fst (ReadQueue.enter_of_nil _ rfl)
  have left : ((middle.enter pending.id).forget pending.id).takes = .empty := by
    change (middle.enter pending.id).takes.leave pending.id = .empty
    rw [entered]
    rfl
  rcases poll_cases fired? middle pending with
    ⟨answer, -, polled⟩ | ⟨failure, -, -, polled⟩ | ⟨-, -, polled⟩
  · exact polled ▸ left
  · exact polled ▸ left
  · exact polled ▸ entered

/-- On its way to rest the actor of the mailbox is told of nothing but pushes, whose clients
listen. -/
theorem settleFor (fed : Fed mailbox)
    (unfired : ∀ pending ∈ mailbox.pending, pending.token.bind fired? = none) (rounds : Nat) :
    Underway mailbox (mailbox.settleFor fired? rounds).1 (mailbox.toldSettling fired? rounds) ∧
      LivePushes (mailbox.toldSettling fired? rounds) ∧
        (mailbox.settleFor fired? rounds).1.takes = .empty := by
  obtain ⟨history, books, -⟩ := fed.books
  have opened := Underway.refl books fed.waits
  -- what holds of every mailbox on the way, with what its actor has been told so far
  let onTheWay (middle : Mailbox α) (told : Told α) : Prop :=
    Underway mailbox middle told ∧ LivePushes told ∧ middle.takes = .empty
  have polls {middle : Mailbox α} {told : Told α} (holds : onTheWay middle told) :
      onTheWay (middle.pollAll fired?).1 told :=
    ⟨holds.1.pollAll unfired, holds.2.1, takes_pollAll holds.2.2⟩
  have serves (middle : Mailbox α) (told : Told α) (holds : onTheWay middle told) :
      onTheWay middle.serveQueues.1 (told ++ middle.told) := by
    obtain ⟨underway, live, takes⟩ := holds
    refine ⟨underway.serveQueues, fun entry member => ?_, ?_⟩
    · rcases List.mem_append.mp member with before | now
      · exact live entry before
      · obtain ⟨event, queued, rfl⟩ := List.mem_map.mp now
        have alone : middle.queued =
            middle.pushes.map fun item => .push item (middle.listening item.push) := by
          rw [Mailbox.queued, underway.uncontrolled fed.orders, takes, underway.waits]
          simp [ReadQueue.empty]
        obtain ⟨item, waits, rfl⟩ := List.mem_map.mp (alone ▸ queued)
        have stands : item.push ∈ middle.standing := by
          simp only [standing, List.mem_append]
          exact .inl (.inl (.inl (.inl (.inr (List.mem_map_of_mem waits)))))
        have hears : middle.listening item.push = true :=
          (underway.hears _ stands).trans (fed.heard _ (underway.standing _ stands))
        exact ⟨item, by rw [hears], hears⟩
    · change middle.takes.serve = .empty
      rw [takes]
      rfl
  suffices every : ∀ (middle : Mailbox α) (told : Told α), onTheWay middle told →
      onTheWay (middle.settleFor fired? rounds).1 (told ++ middle.toldSettling fired? rounds) by
    exact every mailbox [] ⟨opened, fun _ member => absurd member List.not_mem_nil, fed.takes⟩
  induction rounds with
  | zero =>
      intro middle told holds
      rw [toldSettling, List.append_nil]
      exact polls holds
  | succ rounds ih =>
      intro middle told holds
      rw [toldSettling, ← List.append_assoc]
      exact ih _ _ (serve_induct serves
        (fun _ _ idle holds => ⟨holds.1.letIn idle, holds.2.1, holds.2.2⟩) (polls holds))

/-- A mailbox that is fed may settle. -/
theorem settle (fed : Fed mailbox)
    (unfired : ∀ pending ∈ mailbox.pending, pending.token.bind fired? = none) :
    Fed (mailbox.settle fired?).1 := by
  obtain ⟨underway, -, takes⟩ := fed.settleFor unfired mailbox.rounds
  obtain ⟨history, books, kept⟩ := fed.books
  obtain ⟨settled, seen⟩ := books.settle fired?
  exact
    { books := ⟨_, settled, by rw [givenUp_append, kept]; rfl⟩
      seen := seen
      orders := underway.uncontrolled fed.orders
      writers := underway.handles ▸ fed.writers
      takes := takes
      waits := underway.waits
      heard := fun request stands =>
        (underway.hears request stands).trans (fed.heard request (underway.standing request stands)) }

end Fed

/-! ## Runs of pushes -/

namespace World

/-- Pushes fire no token. -/
theorem operateAll_signals {world : World α} (fed : Fed world.mailbox) (values : List α) :
    (world.operateAll (values.map Operation.push)).1.signals = world.signals := by
  induction values generalizing world with
  | nil => rfl
  | cons value rest ih =>
      refine (ih (fed.operate value)).trans ?_
      rw [operate_push fed.writers]
      rfl

/-- No token tells a client of pushes in a row to give up, if none had done so before. -/
theorem unfired_operateAll {world : World α} (fed : Fed world.mailbox)
    (unfired : ∀ token, world.signals.fired? token = none) (values : List α) :
    ∀ pending ∈ (world.operateAll (values.map Operation.push)).1.mailbox.pending,
      pending.token.bind (world.operateAll (values.map Operation.push)).1.signals.fired? =
        none := by
  intro pending _
  rw [operateAll_signals fed values]
  cases pending.token with
  | none => rfl
  | some token => exact unfired token

/-- After a step of pushes there can be another one. -/
theorem fed_step {world : World α} (fed : Fed world.mailbox)
    (unfired : ∀ token, world.signals.fired? token = none) (values : List α) :
    Fed (world.step (values.map Operation.push)).1.mailbox ∧
      ∀ token, (world.step (values.map Operation.push)).1.signals.fired? token = none := by
  refine ⟨(fed.operateAll values).settle (unfired_operateAll fed unfired values), fun token => ?_⟩
  have signals := congrArg Signals.fired? (operateAll_signals fed values)
  exact (congrFun signals token).trans (unfired token)

/-- In a run of pushes the actor is told of nothing but pushes, whose clients listen. -/
theorem fed_run {world : World α} (fed : Fed world.mailbox)
    (unfired : ∀ token, world.signals.fired? token = none) (batches : List (List α)) :
    Fed (world.run (batches.map (List.map Operation.push))).1.mailbox ∧
      LivePushes (world.told (batches.map (List.map Operation.push))) := by
  induction batches generalizing world with
  | nil => exact ⟨fed, fun _ member => absurd member List.not_mem_nil⟩
  | cons values rest ih =>
      obtain ⟨stepped, still⟩ := fed_step fed unfired values
      obtain ⟨final, live⟩ := ih stepped still
      refine ⟨final, fun entry member => ?_⟩
      rcases List.mem_append.mp member with now | afterwards
      · have nobody := unfired_operateAll fed unfired values
        exact ((fed.operateAll values).settleFor nobody _).2.1 entry now
      · exact live entry afterwards

end World

namespace History

/-- The values that are pushed in a row are those that a history tells of. -/
theorem pushed_operateAll {world : World α} (fed : Fed world.mailbox) (values : List α) :
    (ofOperations (values.map Operation.push)
      (world.operateAll (values.map Operation.push)).2).pushed.map Item.value = values := by
  induction values generalizing world with
  | nil => rfl
  | cons value rest ih =>
      have later := ih (fed.operate value)
      have pushed : (ofOperation (.push value) (world.operate (.push value)).2).pushed =
          [⟨world.mailbox.nextRequest, value⟩] := by
        rw [World.operate_push fed.writers]
        rfl
      change ((ofOperation (.push value) (world.operate (.push value)).2).pushed ++
        (ofOperations (rest.map Operation.push)
          ((world.operate (.push value)).1.operateAll _).2).pushed).map Item.value = _
      rw [pushed]
      exact congrArg (value :: ·) later

/-- All values of all batches are pushed, in their order. -/
theorem pushed_run {world : World α} (fed : Fed world.mailbox)
    (unfired : ∀ token, world.signals.fired? token = none) (batches : List (List α)) :
    (ofRun (batches.map (List.map Operation.push))
      (world.run (batches.map (List.map Operation.push))).2).pushed.map Item.value =
        batches.flatten := by
  induction batches generalizing world with
  | nil => rfl
  | cons values rest ih =>
      have now := pushed_operateAll fed values
      obtain ⟨stepped, unfired'⟩ := World.fed_step fed unfired values
      have later := ih stepped unfired'
      change ((ofOperations _ _).pushed ++ [] ++ (ofRun _ _).pushed).map Item.value = _
      rw [List.append_nil, List.map_append, List.flatten_cons]
      exact congrArg₂ (· ++ ·) now later

end History

/-! ## What a mailbox is filled with -/

/-- Pushes stay in line in every run. -/
theorem World.inLine_run (capacity : Nat) (policy : Policy) (slots : Nat)
    (steps : List (List (Operation α))) :
    let start : World α := World.start capacity policy slots
    InLine (start.run steps).1.mailbox (start.told steps)
      (ofRun steps (start.run steps).2).pushed := by
  intro start
  have opened : InLine start.mailbox [] [] :=
    ⟨List.prefix_rfl, fun _ => rfl, .nil, fun _ member => absurd member List.not_mem_nil, .nil,
      fun _ member => absurd member List.not_mem_nil⟩
  exact opened.run (.inl rfl) steps

/-- In a mailbox at rest all pushes have reached the actor. -/
theorem Served.arrivals (served : mailbox.Served) (told : Told α) :
    mailbox.arrivals told = itemsOf told := by
  rw [Mailbox.arrivals, served.pushes, served.overflow, List.append_nil, List.append_nil]

/-- What a mailbox is left with into which values have been pushed and from which none has been
taken, and what its history tells. -/
structure Filled (capacity : Nat) (policy : Policy) (values : List α) (mailbox : Mailbox α)
    (history : History α) : Prop where
  /-- The history tells of the values in the order in which they were pushed. -/
  values : history.pushed.map Item.value = values
  numbered : (history.pushed.map Item.push).Pairwise (· < ·)
  overflows : Actor.Overflows capacity policy history.pushed mailbox.actor history.notices
  /-- Every push has succeeded that need not wait. -/
  succeeded : ∀ item ∈ history.pushed, (item.push, .ok .accepted) ∈ history.ended ↔
    item ∈ policy.admitted (atLeastOne capacity) history.pushed
  /-- The others go on waiting. -/
  waiting : ∀ item ∈ history.pushed, mailbox.listening item.push = true ↔
    item ∈ policy.delayed (atLeastOne capacity) history.pushed

/-- Which of two pushes it is shows in its number. -/
theorem mem_map_push_iff {items some : List (Item α)} {item : Item α}
    (numbered : (items.map Item.push).Pairwise (· < ·)) (sub : some ⊆ items)
    (present : item ∈ items) : item.push ∈ some.map Item.push ↔ item ∈ some := by
  refine ⟨fun member => ?_, fun member => List.mem_map_of_mem member⟩
  obtain ⟨other, among, same⟩ := List.mem_map.mp member
  have once : (items.map Item.push).Nodup := numbered.imp Nat.ne_of_lt
  rwa [← List.inj_on_of_nodup_map once (sub among) present same]

/-- The acknowledged pushes are those whose clients are told so. -/
theorem filterMap_accepted (notices : List (Notice α)) :
    notices.filterMap Notice.accepted? =
      (notices.filterMap Notice.answer?).filterMap acceptance? := by
  rw [List.filterMap_filterMap]
  congr 1
  funext notice
  rcases notice with ⟨request, _ | item | _ | _⟩ | ⟨item, overflowing⟩ | item <;> rfl

namespace Actor.Overflows

variable {capacity : Nat} {policy : Policy} {history : History α} {item : Item α}

/-- The pushes of a mailbox that have succeeded are those that its actor admits. -/
theorem succeeded_iff
    (overflows : Overflows capacity policy history.pushed mailbox.actor history.notices)
    (books : Books mailbox history) (seen : mailbox.answers = [])
    (numbered : (history.pushed.map Item.push).Pairwise (· < ·)) (pushed : item ∈ history.pushed) :
    (item.push, .ok .accepted) ∈ history.ended ↔
      item ∈ policy.admitted (atLeastOne capacity) history.pushed := by
  have whose := mem_map_push_iff numbered
    (policy.admitted_subset (atLeastOne capacity) history.pushed) pushed
  have accepted := filterMap_accepted history.notices
  rw [overflows.answered, List.filterMap_map] at accepted
  rw [← books.mem_accepted_iff seen, accepted, ← whose, ← List.filterMap_eq_map]
  rfl

/-- The pushes of a mailbox that go on waiting are those that its actor delays, if a client listens
for no other reason than that its push is blocked. -/
theorem listening_iff
    (overflows : Overflows capacity policy history.pushed mailbox.actor history.notices)
    (fed : Fed mailbox)
    (blocked : mailbox.listening item.push = true →
      item.push ∈ mailbox.actor.blocked.map Item.push)
    (numbered : (history.pushed.map Item.push).Pairwise (· < ·)) (pushed : item ∈ history.pushed) :
    mailbox.listening item.push = true ↔
      item ∈ policy.delayed (atLeastOne capacity) history.pushed := by
  have whose := mem_map_push_iff numbered
    (policy.delayed_subset (atLeastOne capacity) history.pushed) pushed
  rw [← whose, ← overflows.blocked]
  refine ⟨blocked, fun waits => fed.heard _ ?_⟩
  simp only [standing, Actor.held, List.mem_append]
  exact .inr (.inl (.inl waits))

end Actor.Overflows

/-- Overflow policies: an actor of any capacity and policy that handles any pushes of clients that
listen, and nothing else, keeps, lets wait and loses what its policy says; and so does a mailbox
with any number of slots after any steps in which values are pushed. -/
theorem run_overflows (capacity : Nat) (policy : Policy) :
    (∀ told : Told α, LivePushes told →
      Actor.Overflows capacity policy (itemsOf told) ((Actor.new capacity policy).run told).1
        ((Actor.new capacity policy).run told).2) ∧
    ∀ (slots : Nat) (batches : List (List α)),
      let steps := batches.map (List.map Operation.push)
      let final := (World.start capacity policy slots).run steps
      Filled capacity policy batches.flatten final.1.mailbox (ofRun steps final.2) := by
  refine ⟨fun told pushes => (Actor.run_gathers capacity policy pushes).overflows, ?_⟩
  intro slots batches steps final
  have fresh : Books (World.start capacity policy slots : World α).mailbox History.empty :=
    Books.fresh capacity policy slots
  have start : Fed (World.start capacity policy slots : World α).mailbox :=
    ⟨⟨_, fresh, rfl⟩, rfl, rfl, Nat.zero_lt_one, rfl, rfl,
      fun _ stands => absurd stands List.not_mem_nil⟩
  obtain ⟨fed, live⟩ := World.fed_run start (fun _ => rfl) batches
  obtain ⟨books, seen⟩ := fresh.run rfl steps
  have inLine : InLine final.1.mailbox _ (ofRun steps final.2).pushed :=
    World.inLine_run capacity policy slots steps
  have quiet : Quiet final.1.mailbox (requestsOf steps final.2) :=
    World.quiet_run capacity policy slots steps
  have overflows : Actor.Overflows capacity policy (ofRun steps final.2).pushed
      final.1.mailbox.actor (ofRun steps final.2).notices := by
    have gathered := (Actor.run_gathers capacity policy live).overflows
    have told : (Actor.new capacity policy).run ((World.start capacity policy slots).told steps) =
        (final.1.mailbox.actor, (ofRun steps final.2).notices) :=
      (World.start capacity policy slots).run_told steps
    rwa [told, ← quiet.served.arrivals, inLine.whole fed.running] at gathered
  exact
    { values := pushed_run start (fun _ => rfl) batches
      numbered := inLine.numbered
      overflows := overflows
      succeeded := fun item pushed =>
        overflows.succeeded_iff books seen inLine.numbered pushed
      waiting := fun item pushed =>
        overflows.listening_iff fed (quiet.blocked pushed) inLine.numbered pushed }

/-- Of three values that two places hold, the newest takes the place of the one before it. -/
theorem run_overflows_three :
    let told : Told Char :=
      [(fun _ => true, .push ⟨0, 'a'⟩ true), (fun _ => true, .push ⟨1, 'b'⟩ true),
        (fun _ => true, .push ⟨2, 'c'⟩ true)]
    LivePushes told ∧
      ((Actor.new 2 .dropTail).run told).1.buffer = [⟨0, 'a'⟩, ⟨2, 'c'⟩] ∧
        ((Actor.new 2 .dropTail).run told).1.discarded = 1 := by
  intro told
  have live : LivePushes told := by simp [LivePushes, told]
  have overflows := (run_overflows 2 .dropTail).1 told live
  exact ⟨live, overflows.buffer, overflows.discarded⟩

end CommandScript.Mailbox
