import CommandScript.Proofs.Mailbox.Settling
import CommandScript.Proofs.Mailbox.Shutdown

/-!
# Mailboxes that are alike

Two mailboxes are alike when their actors have the same items, and the same requests of those who
listen wait, be it with the actor or on their way to it. How many slots their queues have, and which
requests have one, does not matter: where pushes wait for room and nobody waits for word of an item,
mailboxes that are alike come to rest alike, and end the same requests in the same way
(`CommandScript.Mailbox.Alike.settle`).
-/

namespace CommandScript.Mailbox

variable {α : Type}

open History

/-! ## Mailboxes that are alike -/

/-- Two actors at rest have the same to give, and the same requests of those who listen wait. -/
inductive Actor.Alike (listening : RequestId → Bool) (left right : Actor α) : Prop where
  | shut (first : left.AtRest) (second : right.AtRest) (firstShut : left.Shut)
    (secondShut : right.Shut) (remains : left.remains = right.remains)
  | lasting (first : left.Lasting) (second : right.Lasting)
    (agree : Actor.Agree listening left right)

/-- Two mailboxes, whose clients have asked the same of them, have done the same. -/
structure Alike (left right : Mailbox α) : Prop where
  pending : left.pending = right.pending
  nextRequest : left.nextRequest = right.nextRequest
  control : left.control = right.control
  handles : left.handles = right.handles
  attending : left.attending = right.attending
  items : left.arrivals [] = right.arrivals []
  takes : (left.callers []).filter left.listening = (right.callers []).filter right.listening
  actors : Actor.Alike left.listening left.actor right.actor

/-- The actors of two mailboxes that are alike find the same in their control queues. -/
theorem Alike.orders {left right : Mailbox α} (alike : Alike left right) :
    left.orders = right.orders := by
  rw [Mailbox.orders, alike.attending, alike.control, alike.handles]
  rfl

/-- Two lists of notices bring the same items and the same word to clients. -/
structure SameAnswers (notices others : List (Notice α)) : Prop where
  handed : notices.filterMap Notice.handed? = others.filterMap Notice.handed?
  accepted : notices.filterMap Notice.accepted? = others.filterMap Notice.accepted?
  ready : notices.filterMap Notice.ready? = others.filterMap Notice.ready?

/-- Word that is told in one list of notices is told in the other. -/
theorem SameAnswers.mem {notices others : List (Notice α)} (same : SameAnswers notices others)
    {request : RequestId} {answer : Answer α} (well : answer ≠ .notRunning)
    (told : .answered request answer ∈ notices) : .answered request answer ∈ others := by
  have among {β : Type} (tell : Notice α → Option β)
      (equal : notices.filterMap tell = others.filterMap tell) {word : β}
      (tells : tell (.answered request answer) = some word) : word ∈ others.filterMap tell :=
    equal ▸ List.mem_filterMap.mpr ⟨_, told, tells⟩
  cases answer with
  | accepted =>
      obtain ⟨notice, member, tells⟩ :=
        List.mem_filterMap.mp (among Notice.accepted? same.accepted rfl)
      rcases notice with ⟨other, _ | item | _ | _⟩ | ⟨item, overflowing⟩ | item <;> cases tells
      exact member
  | delivered item =>
      obtain ⟨notice, member, tells⟩ :=
        List.mem_filterMap.mp (among Notice.handed? same.handed rfl)
      rcases notice with ⟨other, _ | item | _ | _⟩ | ⟨item, overflowing⟩ | item <;> cases tells
      exact member
  | ready =>
      obtain ⟨notice, member, tells⟩ :=
        List.mem_filterMap.mp (among Notice.ready? same.ready rfl)
      rcases notice with ⟨other, _ | item | _ | _⟩ | ⟨item, overflowing⟩ | item <;> cases tells
      exact member
  | notRunning => exact absurd rfl well

/-- Mailboxes with the same pending requests listen to the same clients. -/
theorem listening_congr {left right : Mailbox α} (pending : left.pending = right.pending) :
    left.listening = right.listening := by
  funext request
  rw [listening, listening, pending]

variable {start mailbox : Mailbox α} {told : Told α}

/-! ## What is decided when a mailbox has come to rest -/

/-- When a mailbox is served, all that came in has been told. -/
theorem Underway.itemsOf (underway : Underway start mailbox told) (served : mailbox.Served) :
    itemsOf told = start.arrivals [] := by
  rw [← underway.items, arrivals, served.pushes, served.overflow, List.append_nil, List.append_nil]

/-- When a mailbox is served, all takers who listen have been told. -/
theorem Underway.takersOf (underway : Underway start mailbox told) (served : mailbox.Served)
    (running : mailbox.actor.ended = false) :
    (takersOf told).filter start.listening = (start.callers []).filter start.listening := by
  have none : mailbox.callers told = Mailbox.takersOf told := by
    rw [callers, served.takes]
    exact List.append_nil _
  rw [← underway.takes running, none]

/-- Where the input is closed, what is left after control requests goes to the takes in order. -/
theorem Underway.ending (underway : Underway start mailbox told) (served : mailbox.Served)
    (rest : start.actor.AtRest) (ending : start.actor.Shut ∨ start.orders ≠ []) :
    let left := (start.actor.remains.run
      (start.orders.map fun control => (start.listening, control.event))).1
    let takes := (Mailbox.takersOf told).filter start.listening
    let notices := (start.actor.run told).2
    mailbox.actor.Shut ∧ mailbox.actor.remains = left.drop takes.length ∧
      notices.filterMap Notice.handed? = takes.zip left.items ∧
        notices.filterMap Notice.accepted? = [] ∧ notices.filterMap Notice.ready? = [] := by
  intro left takes notices
  obtain ⟨calls, order, isCalls⟩ := underway.sequence
  rw [served.orders, List.map_nil, List.append_nil] at order
  have first : start.actor.Shut ∨ ∃ listening control others,
      told = (listening, Control.event control) :: others := by
    refine ending.imp_right fun asked => ?_
    obtain ⟨control, more, same⟩ := List.exists_cons_of_ne_nil asked
    rw [same, List.map_cons, List.cons_append] at order
    obtain ⟨⟨listening, event⟩, others, rfl, is, -⟩ := List.map_eq_cons_iff.mp order
    exact ⟨listening, control, others, congrArg (· :: others) (congrArg (Prod.mk listening) is)⟩
  obtain ⟨shut, remains, same⟩ := Actor.run_of_ending rest first
  rw [underway.ran] at shut remains
  obtain ⟨controls, others, rfl, front, back⟩ := List.map_eq_append_iff.mp order
  let asked : Told α := start.orders.map fun control => (start.listening, control.event)
  have asks : asked.map Prod.snd = start.orders.map Control.event := by
    rw [List.map_map]
    rfl
  obtain ⟨after, handed, ready⟩ := start.actor.remains.run_controls front asks
  have agreed := fun entry member =>
    underway.agreed entry (List.mem_append_right controls member)
  obtain ⟨final, got, silent⟩ := Remains.run_calls (start.actor.remains.run controls).1
    (fun entry member => isCalls _ (back ▸ List.mem_map_of_mem member)) agreed
  have none : Mailbox.takersOf controls = [] := by
    rw [Mailbox.takersOf, front]
    exact filterMap_control _ _ rfl rfl
  have same' : takes = (Mailbox.takersOf others).filter start.listening := by
    rw [show takes = (Mailbox.takersOf (controls ++ others)).filter start.listening from rfl,
      takersOf_append, none, List.nil_append]
  rw [Remains.run_append] at remains same
  refine ⟨shut, ?_, ?_, ?_, ?_⟩
  · rw [remains, same', show left = _ from after.symm]
    exact final
  · rw [same _ fun _ => rfl, List.filterMap_append, handed, got, same',
      show left = _ from after.symm]
    rfl
  · rw [same _ fun _ => rfl, List.filterMap_append, Remains.run_accepted, Remains.run_accepted]
    rfl
  · rw [same _ fun _ => rfl, List.filterMap_append, ready, silent]
    rfl

variable {left right leftEnd rightEnd : Mailbox α} {more : Told α}

/-- The actor stays at rest on the way. -/
theorem Underway.atRest (underway : Underway start mailbox told) (rest : start.actor.AtRest) :
    mailbox.actor.AtRest :=
  underway.ran ▸ Actor.run_atRest _ rest told

section Decided

variable (alike : Alike left right) (first : Underway left leftEnd told)
  (firstServed : leftEnd.Served) (second : Underway right rightEnd more)
  (secondServed : rightEnd.Served)
include alike first firstServed second secondServed

/-- If the actors run, the takes that they are told of are the same. -/
theorem Alike.takersOf (firstRunning : leftEnd.actor.ended = false)
    (secondRunning : rightEnd.actor.ended = false) :
    (Mailbox.takersOf told).filter left.listening =
      (Mailbox.takersOf more).filter left.listening := by
  have takes := (first.takersOf firstServed firstRunning).trans
    (alike.takes.trans (second.takersOf secondServed secondRunning).symm)
  rw [← listening_congr alike.pending] at takes
  exact takes

/-- Where the input is closed, all depends on what is left and on the takes. -/
theorem Alike.decided_ending (firstRest : left.actor.AtRest) (secondRest : right.actor.AtRest)
    (remains : left.actor.remains = right.actor.remains)
    (firstEnding : left.actor.Shut ∨ left.orders ≠ [])
    (secondEnding : right.actor.Shut ∨ right.orders ≠ []) :
    Actor.Alike left.listening leftEnd.actor rightEnd.actor ∧
      SameAnswers (left.actor.run told).2 (right.actor.run more).2 := by
  have listens := listening_congr alike.pending
  obtain ⟨shut, final, handed, accepted, ready⟩ := first.ending firstServed firstRest firstEnding
  obtain ⟨shut', final', handed', accepted', ready'⟩ :=
    second.ending secondServed secondRest secondEnding
  rw [← remains, ← alike.orders, ← listens] at final' handed'
  generalize (left.actor.remains.run
    (left.orders.map fun control => (left.listening, control.event))).1 = rest
    at final handed final' handed'
  have same : leftEnd.actor.remains = rightEnd.actor.remains ∧
      (left.actor.run told).2.filterMap Notice.handed? =
        (right.actor.run more).2.filterMap Notice.handed? := by
    cases rest with
    | discarded =>
        rw [final, final', handed, handed', Remains.items, List.zip_nil_right, List.zip_nil_right]
        exact ⟨rfl, rfl⟩
    | closed items =>
        rw [final, final', handed, handed', alike.takersOf first firstServed second secondServed
          (Actor.running_of_remains final) (Actor.running_of_remains final')]
        exact ⟨rfl, rfl⟩
  exact ⟨.shut (first.atRest firstRest) (second.atRest secondRest) shut shut' same.1,
    same.2, accepted.trans accepted'.symm, ready.trans ready'.symm⟩

/-- Where no control request is on its way, the actors do not depend on the order in which they are
told of pushes and takes. -/
theorem Alike.decided_lasting (firstLasting : left.actor.Lasting)
    (secondLasting : right.actor.Lasting)
    (agree : Actor.Agree left.listening left.actor right.actor) (uncontrolled : left.orders = []) :
    Actor.Alike left.listening leftEnd.actor rightEnd.actor ∧
      SameAnswers (left.actor.run told).2 (right.actor.run more).2 := by
  obtain ⟨firstLast, kept⟩ := first.lossless uncontrolled firstLasting
  obtain ⟨secondLast, kept'⟩ := second.lossless (alike.orders ▸ uncontrolled) secondLasting
  rw [← listening_congr alike.pending] at kept'
  have items : Mailbox.itemsOf told = Mailbox.itemsOf more :=
    (first.itemsOf firstServed).trans (alike.items.trans (second.itemsOf secondServed).symm)
  have takes := alike.takersOf first firstServed second secondServed firstLast.running
    secondLast.running
  obtain ⟨agrees, handed, accepted⟩ := agree.confluent kept firstLast.rest kept' secondLast.rest
    (congrArg (live left.listening) items) takes
  exact ⟨.lasting firstLast secondLast agrees, handed, accepted,
    kept.silent.trans kept'.silent.symm⟩

/-- Two mailboxes that are alike have, once they have come to rest, actors that are alike and have
brought clients the same answers. -/
theorem Alike.decided :
    Actor.Alike left.listening leftEnd.actor rightEnd.actor ∧
      SameAnswers (left.actor.run told).2 (right.actor.run more).2 := by
  cases alike.actors with
  | shut firstRest secondRest firstShut secondShut remains =>
      exact alike.decided_ending first firstServed second secondServed firstRest secondRest remains
        (.inl firstShut) (.inl secondShut)
  | lasting firstLasting secondLasting agree =>
      by_cases uncontrolled : left.orders = []
      · exact alike.decided_lasting first firstServed second secondServed firstLasting
          secondLasting agree uncontrolled
      · have remains : left.actor.remains = right.actor.remains := by
          rw [Actor.remains, Actor.remains, firstLasting.running, secondLasting.running,
            agree.buffer]
        exact alike.decided_ending first firstServed second secondServed firstLasting.rest
          secondLasting.rest remains (.inr uncontrolled) (.inr (alike.orders ▸ uncontrolled))

end Decided

/-! ## Who goes on waiting -/

/-- The same requests wait at actors that are alike. -/
theorem Actor.Alike.held {listening : RequestId → Bool} {left right : Actor α}
    (alike : Actor.Alike listening left right) {request : RequestId}
    (hears : listening request = true) : request ∈ left.held ↔ request ∈ right.held := by
  have pushes (items : List (Item α)) : request ∈ items.map Item.push ↔
      request ∈ (live listening items).map Item.push := by
    constructor
    · intro member
      obtain ⟨item, present, rfl⟩ := List.mem_map.mp member
      exact List.mem_map_of_mem (List.mem_filter.mpr ⟨present, hears⟩)
    · intro member
      obtain ⟨item, present, rfl⟩ := List.mem_map.mp member
      exact List.mem_map_of_mem (List.mem_of_mem_filter present)
  have takers (takes : List RequestId) : request ∈ takes ↔ request ∈ takes.filter listening := by
    rw [List.mem_filter, and_iff_left hears]
  cases alike with
  | shut first second firstShut secondShut remains =>
      rw [first.held_of_shut firstShut, second.held_of_shut secondShut]
  | lasting first second agree =>
      simp only [Actor.held, List.mem_append, first.nobody, second.nobody]
      rw [pushes left.blocked, pushes right.blocked, takers left.takers, takers right.takers,
        agree.blocked, agree.takers]

/-- A request that stands anywhere is a push or a take on its way to the actor, or the actor holds
it. -/
theorem mem_standing_iff (unanswered : mailbox.Unanswered) {request : RequestId} :
    request ∈ mailbox.standing ↔ request ∈ (mailbox.arrivals []).map Item.push ∨
      request ∈ mailbox.callers [] ∨ request ∈ mailbox.actor.held := by
  have arrived : mailbox.arrivals [] = mailbox.pushes ++ mailbox.overflow := rfl
  have called : mailbox.callers [] = mailbox.takes.requests := rfl
  have none : mailbox.waits.requests = [] := congrArg ReadQueue.requests unanswered.waits
  rw [standing, unanswered.seen, none, arrived, called, List.map_append]
  simp only [List.mem_append, List.map_nil, List.not_mem_nil, false_or, or_false, or_assoc]

/-- The same requests are standing in mailboxes that are alike. -/
theorem Alike.standing (alike : Alike left right) (first : left.Unanswered)
    (second : right.Unanswered) {request : RequestId} (hears : left.listening request = true) :
    request ∈ left.standing ↔ request ∈ right.standing := by
  have takes := congrArg (request ∈ ·) alike.takes
  simp only [List.mem_filter, ← listening_congr alike.pending, hears, and_true] at takes
  rw [mem_standing_iff first, mem_standing_iff second, alike.items, takes,
    alike.actors.held hears]

/-- A request that stands somewhere has a place there for its purpose. -/
theorem exists_place (unanswered : mailbox.Unanswered) {request : RequestId}
    (stands : request ∈ mailbox.standing) :
    ∃ purpose, purpose ≠ Purpose.token ∧
      request ∈ mailbox.queuedFor purpose ++ mailbox.linedFor purpose ++
        mailbox.actor.waiting purpose := by
  rw [mem_standing_iff unanswered] at stands
  simp only [Actor.held, List.mem_append] at stands
  rcases stands with push | take | (blocked | taker) | waiter
  · refine ⟨.push, Purpose.noConfusion, List.mem_append_left _ ?_⟩
    exact (List.map_append (f := Item.push)) ▸ push
  · exact ⟨.take, Purpose.noConfusion, List.mem_append_left _ take⟩
  · exact ⟨.push, Purpose.noConfusion, List.mem_append_right _ blocked⟩
  · exact ⟨.take, Purpose.noConfusion, List.mem_append_right _ taker⟩
  · exact ⟨.wait, Purpose.noConfusion, List.mem_append_right _ waiter⟩

/-- Once a mailbox has come to rest, a client still listens if its request stood nowhere or the
actor holds it. -/
theorem Underway.listening_iff (underway : Underway start mailbox told)
    (unanswered : start.Unanswered) (served : mailbox.Served) (seen : mailbox.answers = [])
    (request : RequestId) :
    mailbox.listening request = true ↔ start.listening request = true ∧
      (request ∉ start.standing ∨ request ∈ mailbox.actor.held) := by
  constructor
  · intro hears
    have heard : start.listening request = true := by
      obtain ⟨pending, member, same⟩ :=
        List.mem_map.mp ((Mailbox.listening_iff mailbox request).mp hears)
      rw [underway.pending] at member
      exact same ▸ listening_of_mem (List.mem_of_mem_filter member)
    refine ⟨heard, ?_⟩
    by_cases stands : request ∈ start.standing
    · -- a request keeps its place as long as its client listens
      obtain ⟨purpose, other, place⟩ := exists_place unanswered stands
      rcases underway.placed (request, purpose) (fun _ => .inr (.inr place)) hears with
        token | answered | still
      · exact absurd token other
      · rw [seen] at answered
        cases answered
      · rw [served.queuedFor, served.linedFor] at still
        refine .inr ?_
        simp only [Actor.held, List.mem_append]
        cases purpose with
        | push => exact .inl (.inl still)
        | take => exact .inl (.inr still)
        | wait => exact .inr still
        | token => cases still
    · exact .inl stands
  · rintro ⟨hears, nowhere | held⟩
    · rw [underway.stays request nowhere]
      exact hears
    · rw [underway.hears request (List.mem_append_right _ held)]
      exact hears

/-- In two mailboxes that were alike and have come to rest the same requests are pending. -/
theorem Alike.pending_end (alike : Alike left right) (first : Underway left leftEnd told)
    (firstStart : left.Unanswered) (firstServed : leftEnd.Served) (firstSeen : leftEnd.answers = [])
    (second : Underway right rightEnd more) (secondStart : right.Unanswered)
    (secondServed : rightEnd.Served) (secondSeen : rightEnd.answers = []) :
    leftEnd.pending = rightEnd.pending := by
  have actors := (alike.decided first firstServed second secondServed).1
  have listens : leftEnd.listening = rightEnd.listening := by
    funext request
    rw [Bool.eq_iff_iff, first.listening_iff firstStart firstServed firstSeen,
      second.listening_iff secondStart secondServed secondSeen,
      ← listening_congr alike.pending]
    refine and_congr_right fun hears => ?_
    rw [alike.standing firstStart secondStart hears, actors.held hears]
  rw [first.pending, second.pending, alike.pending, listens]

/-! ## How requests end -/

/-- What is told of a mailbox that comes to rest from `start` on, where nobody is told to give up:
which requests end, and how. -/
structure Passage (start final : Mailbox α) (later : History α) : Prop where
  ended : ∀ request, request ∈ later.ended.map Prod.fst ↔
    start.listening request = true ∧ final.listening request = false
  once : (later.ended.map Prod.fst).Nodup
  answers : ∀ request answer, (request, .ok answer) ∈ later.ended ↔
    .answered request answer ∈ later.notices ∧ answer ≠ .notRunning
  failures : ∀ request failure, (request, .error failure) ∈ later.ended → failure = .notRunning

/-- What the books say of a step in which no request is abandoned. -/
theorem Passage.of_books {start final : Mailbox α} {history later : History α}
    (books : Books start history) (seen : start.answers = [])
    (whole : Books final (history ++ later)) (unseen : final.answers = [])
    (same : final.nextRequest = start.nextRequest) (kept : later.abandoned = [])
    (failures : ∀ request failure, (request, .error failure) ∈ later.ended →
      failure = .notRunning) : Passage start final later where
  ended := by
    intro request
    have before := books.requests request
    have after := whole.requests request
    have once := List.nodup_iff_count.mp (List.nodup_range (n := start.nextRequest)) request
    rw [same, ended_append, abandoned_append, kept, List.append_nil, List.map_append,
      List.count_append] at after
    rw [Bool.eq_false_iff, ne_eq, listening_iff, listening_iff, ← List.count_pos_iff,
      ← List.count_pos_iff, ← List.count_pos_iff]
    omega
  once := by
    have once := whole.ended_nodup
    rw [ended_append, List.map_append] at once
    exact (List.nodup_append.mp once).2.1
  answers := fun _ _ => books.mem_later_iff seen whole unseen
  failures := failures

/-- Where the same clients leave and get the same answers, the same requests end in the same way. -/
theorem Passage.perm {history other : History α} (first : Passage left leftEnd history)
    (second : Passage right rightEnd other) (starts : left.listening = right.listening)
    (ends : leftEnd.listening = rightEnd.listening)
    (same : SameAnswers history.notices other.notices) : history.ended.Perm other.ended := by
  have within {left right leftEnd rightEnd : Mailbox α} {history other : History α}
      (first : Passage left leftEnd history) (second : Passage right rightEnd other)
      (starts : left.listening = right.listening) (ends : leftEnd.listening = rightEnd.listening)
      (there : SameAnswers history.notices other.notices)
      (back : SameAnswers other.notices history.notices) :
      ∀ entry ∈ history.ended, entry ∈ other.ended := by
    rintro ⟨request, outcome⟩ member
    cases outcome with
    | ok answer =>
        obtain ⟨told, well⟩ := (first.answers request answer).mp member
        exact (second.answers request answer).mpr ⟨there.mem well told, well⟩
    | error failure =>
        obtain rfl := first.failures request failure member
        have left := (first.ended request).mp (List.mem_map_of_mem member)
        rw [starts, ends] at left
        obtain ⟨⟨_, outcome⟩, present, rfl⟩ := List.mem_map.mp ((second.ended request).mpr left)
        cases outcome with
        | error reason =>
            obtain rfl := second.failures _ reason present
            exact present
        | ok answer =>
            obtain ⟨told, well⟩ := (second.answers _ answer).mp present
            have again := (first.answers _ answer).mpr ⟨back.mem well told, well⟩
            cases congrArg Prod.snd (List.inj_on_of_nodup_map first.once member again rfl)
  have back : SameAnswers other.notices history.notices :=
    ⟨same.handed.symm, same.accepted.symm, same.ready.symm⟩
  rw [List.perm_ext_iff_of_nodup (first.once.of_map _) (second.once.of_map _)]
  exact fun entry => ⟨within first second starts ends same back entry,
    within second first starts.symm ends.symm back same entry⟩

/-- Requests that have different numbers are told in the same order, however they ended. -/
theorem byNumber_congr {done others : List (RequestId × Outcome α)}
    (once : (done.map Prod.fst).Nodup) (perm : done.Perm others) :
    byNumber done = byNumber others := by
  have sorted (list : List (RequestId × Outcome α)) :
      (byNumber list).Pairwise fun first second => decide (first.1 ≤ second.1) = true := by
    apply List.pairwise_mergeSort
    · exact fun _ _ _ before behind => decide_eq_true
        (Nat.le_trans (of_decide_eq_true before) (of_decide_eq_true behind))
    · intro first second
      rw [Bool.or_eq_true, decide_eq_true_eq, decide_eq_true_eq]
      exact Nat.le_total first.1 second.1
  have same : (byNumber done).Perm (byNumber others) :=
    (List.mergeSort_perm ..).trans (perm.trans (List.mergeSort_perm ..).symm)
  refine same.eq_of_pairwise (fun first second member other before behind => ?_) (sorted done)
    (sorted others)
  have here : first ∈ done := (List.mergeSort_perm ..).mem_iff.mp member
  have there : second ∈ done := perm.mem_iff.mpr ((List.mergeSort_perm ..).mem_iff.mp other)
  exact List.inj_on_of_nodup_map once here there
    (Nat.le_antisymm (of_decide_eq_true before) (of_decide_eq_true behind))

/-! ## Coming to rest -/

/-- What holds of a mailbox between operations, as long as nobody waits for word of an item. -/
structure Plain (mailbox : Mailbox α) : Prop where
  books : ∃ history, Books mailbox history
  accounted : ∃ requests, Accounted mailbox requests
  inLine : ∃ told pushed, InLine mailbox told pushed
  crowded : mailbox.Crowded
  unanswered : mailbox.Unanswered
  policy : mailbox.actor.policy = .block
  undiscarded : mailbox.discarded = 0

namespace Plain

variable (fired? : TokenId → Option Failure)

/-- After a look at all requests there are no answers that clients have not seen. -/
theorem pollAll_unanswered (plain : Plain mailbox) : (mailbox.pollAll fired?).1.Unanswered :=
  pollEach_induct _ (fun _ pending unanswered => unanswered.poll_unanswered fired? pending)
    plain.unanswered mailbox.pending

/-- After a look at all requests no token of those that are left has fired. -/
theorem unfired (mailbox : Mailbox α) :
    ∀ pending ∈ (mailbox.pollAll fired?).1.pending, pending.token.bind fired? = none :=
  fun pending still => pollEach_unfired mailbox fired? mailbox.pending pending still
    (pollEach_pending_subset fired? mailbox mailbox.pending still)

/-- After the first look at all requests a mailbox is underway to where it comes to rest. -/
theorem underway (plain : Plain mailbox) :
    Underway (mailbox.pollAll fired?).1 (mailbox.settle fired?).1
      (mailbox.toldSettling fired? mailbox.rounds) := by
  obtain ⟨history, books⟩ := plain.books
  have start := Underway.refl (books.pollAll fired?).1 (plain.pollAll_unanswered fired?).waits
  have served := serve_induct (fun _ _ => Underway.serveQueues)
    (fun _ _ idle underway => underway.letIn idle) start
  exact served.settleFor (unfired fired? mailbox) _

/-- A plain mailbox is served when it settles. -/
theorem served (plain : Plain mailbox) : (mailbox.settle fired?).1.Served := by
  obtain ⟨requests, accounted⟩ := plain.accounted
  exact settle_served fired? accounted.attended

/-- A plain mailbox stays plain when it settles. -/
theorem settle (plain : Plain mailbox) : Plain (mailbox.settle fired?).1 := by
  obtain ⟨history, books⟩ := plain.books
  obtain ⟨requests, accounted⟩ := plain.accounted
  obtain ⟨told, pushed, inLine⟩ := plain.inLine
  obtain ⟨final, seen⟩ := books.settle fired?
  have served := plain.served fired?
  -- where pushes wait for room nothing is lost to overflow
  have spared := settleFor_induct
    (fun after _ => after.actor.policy = .block ∧ after.discarded = 0) []
    (fun middle _ pending holds => by
      rw [discarded, (middle.poll_unserved fired? pending).actor]
      exact holds)
    (fun middle _ holds => by
      have spares := Actor.run_spares holds.1 middle.told
      have counted := middle.serveQueues_moves.counted
      have evictions : middle.serveQueues.2.filterMap Notice.eviction? = [] := spares.evictions
      rw [evictions] at counted
      exact ⟨spares.policy, counted.trans holds.2⟩)
    (fun _ _ _ holds => holds) ⟨plain.policy, plain.undiscarded⟩ mailbox.rounds
  exact
    { books := ⟨_, final⟩
      accounted := ⟨requests, accounted.settle fired?⟩
      inLine := ⟨_, pushed, inLine.settle fired?⟩
      crowded := settle_crowded mailbox fired?
      unanswered := ⟨seen, served.waits, fun _ => congrArg ReadQueue.line served.takes⟩
      policy := spared.1
      undiscarded := spared.2 }

/-- Who goes on waiting after a look at all requests is not told to give up in what follows. -/
theorem settleFor_notRunning (mailbox : Mailbox α) (rounds : Nat) :
    let start := (mailbox.pollAll fired?).1
    ∀ request failure,
      (request, .error failure) ∈ (start.serve.1.settleFor fired? rounds).2.done →
        failure = .notRunning := by
  intro start request failure member
  have tokened : Tokened start.serve.1
      (start.pending.filterMap fun pending => pending.token.map fun token =>
        (pending.id, token)) := by
    intro pending member token same
    rw [(serve_emptied _).pending] at member
    exact List.mem_filterMap.mpr ⟨pending, member, by rw [same]; rfl⟩
  refine ((tokened.settleFor fired? _).2 request failure member).resolve_right ?_
  rintro ⟨token, made, fired⟩
  obtain ⟨pending, present, same⟩ := List.mem_filterMap.mp made
  obtain ⟨given, has, same⟩ := Option.map_eq_some_iff.mp same
  cases same
  have silent := unfired fired? mailbox pending present
  rw [has, Option.bind_some, fired] at silent
  cases silent

/-- How the requests end that a mailbox ends while it comes to rest: those whose token tells their
client to give up, and those that end underway. -/
theorem passage (plain : Plain mailbox) :
    let start := (mailbox.pollAll fired?).1
    ∃ later, Passage start (mailbox.settle fired?).1 later ∧
      later.notices = (start.actor.run (mailbox.toldSettling fired? mailbox.rounds)).2 ∧
        (mailbox.settle fired?).2.done = byNumber ((mailbox.pollAll fired?).2 ++ later.ended) ∧
          (((mailbox.pollAll fired?).2 ++ later.ended).map Prod.fst).Nodup := by
  intro start
  let rest := start.serve.1.settleFor fired? (mailbox.takes.line.length + mailbox.waits.line.length)
  let later : History α := ofSettled ⟨rest.2.done, start.serve.2 ++ rest.2.notices⟩
  obtain ⟨history, books⟩ := plain.books
  obtain ⟨early, seen⟩ := books.pollAll fired?
  obtain ⟨final, unseen⟩ := books.settleFor fired? mailbox.rounds
  have told : history ++ ofSettled (mailbox.settleFor fired? mailbox.rounds).2 =
      history ++ ofEnded (mailbox.pollAll fired?).2 ++ later := by
    rw [History.append_assoc]
    congr 1
  rw [told] at final
  refine ⟨later, .of_books early seen final unseen (plain.underway fired?).nextRequest rfl ?_, ?_,
    rfl, ?_⟩
  · exact settleFor_notRunning fired? mailbox _
  · rw [(mailbox.pollAll_unserved fired?).actor, run_toldSettling]
    rfl
  · have once := final.ended_nodup
    rw [ended_append, ended_append, List.append_assoc, List.map_append] at once
    exact (List.nodup_append.mp once).2.1

end Plain

/-- Actors that are alike are so to fewer clients. -/
theorem Actor.Alike.mono {listening fewer : RequestId → Bool} {left right : Actor α}
    (alike : Actor.Alike listening left right)
    (among : ∀ request, fewer request = true → listening request = true) :
    Actor.Alike fewer left right := by
  have narrow {β : Type} (list : List β) (request : β → RequestId) :
      (list.filter fun entry => listening (request entry)).filter
        (fun entry => fewer (request entry)) = list.filter fun entry => fewer (request entry) := by
    rw [List.filter_filter]
    refine List.filter_congr fun entry _ => ?_
    cases hears : fewer (request entry) with
    | true => rw [among _ hears, Bool.true_and]
    | false => rw [Bool.false_and]
  cases alike with
  | shut first second firstShut secondShut remains =>
      exact .shut first second firstShut secondShut remains
  | lasting first second agree =>
      have blocked := congrArg (live fewer) agree.blocked
      have takers := congrArg (List.filter fewer) agree.takers
      simp only [live, narrow _ Item.push, narrow _ (fun request : RequestId => request)]
        at blocked takers
      exact .lasting first second ⟨agree.capacity, agree.buffer, blocked, takers⟩

/-- Of fewer clients who listen the same takes are on their way. -/
theorem Alike.takes_of_fewer (alike : Alike left right) {fewer : RequestId → Bool}
    (among : ∀ request, fewer request = true → left.listening request = true) :
    (left.callers []).filter fewer = (right.callers []).filter fewer := by
  have narrow : (fun request => fewer request && left.listening request) = fewer := by
    funext request
    cases hears : fewer request with
    | true => rw [among request hears, Bool.true_and]
    | false => rw [Bool.false_and]
  have takes := congrArg (List.filter fewer) alike.takes
  rwa [← listening_congr alike.pending, List.filter_filter, List.filter_filter, narrow] at takes

/-- A look at several requests leaves two mailboxes alike, and ends the same requests. -/
theorem Alike.pollEach (alike : Alike left right) (first : left.Unanswered)
    (second : right.Unanswered) (fired? : TokenId → Option Failure) (requests : List Pending) :
    Alike (left.pollEach fired? requests).1 (right.pollEach fired? requests).1 ∧
      (left.pollEach fired? requests).2 = (right.pollEach fired? requests).2 := by
  have unserved := left.pollEach_unserved fired? requests
  have unserved' := right.pollEach_unserved fired? requests
  obtain ⟨pending, done⟩ := first.pollEach_congr second alike.pending fired? requests
  have fewer (request : RequestId)
      (hears : (left.pollEach fired? requests).1.listening request = true) :
      left.listening request = true := by
    obtain ⟨pending, member, rfl⟩ := List.mem_map.mp ((listening_iff _ request).mp hears)
    exact listening_of_mem (pollEach_pending_subset fired? left requests member)
  have listens := listening_congr pending
  refine ⟨⟨pending, ?_, ?_, ?_, ?_, ?_, ?_, ?_⟩, done⟩
  · rw [unserved.nextRequest, unserved'.nextRequest, alike.nextRequest]
  · rw [unserved.control, unserved'.control, alike.control]
  · rw [unserved.handles, unserved'.handles, alike.handles]
  · rw [unserved.attending, unserved'.attending, alike.attending]
  · rw [arrivals, arrivals, unserved.pushes, unserved.overflow, unserved'.pushes,
      unserved'.overflow]
    exact alike.items
  · have kept := first.pollEach_takes fired? requests fun _ hears => hears
    have kept' := second.pollEach_takes fired? requests fun _ hears => hears
    refine Eq.trans kept ((alike.takes_of_fewer fewer).trans ?_)
    rw [listens]
    exact kept'.symm
  · rw [unserved.actor, unserved'.actor]
    exact alike.actors.mono fewer

/-- The first look at all requests leaves two mailboxes alike, and ends the same requests. -/
theorem Alike.pollAll (alike : Alike left right) (first : left.Unanswered)
    (second : right.Unanswered) (fired? : TokenId → Option Failure) :
    Alike (left.pollAll fired?).1 (right.pollAll fired?).1 ∧
      (left.pollAll fired?).2 = (right.pollAll fired?).2 := by
  have looked := alike.pollEach first second fired? left.pending
  unfold Mailbox.pollAll
  rw [← alike.pending]
  exact looked

/-- Two mailboxes that are alike come to rest alike, and end the same requests in the same way. -/
theorem Alike.settle (alike : Alike left right) (first : Plain left) (second : Plain right)
    (fired? : TokenId → Option Failure) :
    Alike (left.settle fired?).1 (right.settle fired?).1 ∧
      (left.settle fired?).2.done = (right.settle fired?).2.done := by
  obtain ⟨polled, ended⟩ := alike.pollAll first.unanswered second.unanswered fired?
  have served := first.served fired?
  have served' := second.served fired?
  have underway := first.underway fired?
  have underway' := second.underway fired?
  obtain ⟨actors, answers⟩ := polled.decided underway served underway' served'
  have pending := polled.pending_end underway (first.pollAll_unanswered fired?) served
    (first.settle fired?).unanswered.seen underway' (second.pollAll_unanswered fired?) served'
    (second.settle fired?).unanswered.seen
  refine ⟨⟨pending, ?_, ?_, ?_, ?_, ?_, ?_, actors.mono ?_⟩, ?_⟩
  · rw [underway.nextRequest, underway'.nextRequest, polled.nextRequest]
  · rw [served.control, served'.control]
  · rw [underway.handles, underway'.handles, polled.handles]
  · rw [attending_of_orders served.orders, attending_of_orders served'.orders, underway.attends,
      underway'.attends, attends, attends, polled.attending, polled.handles]
  · rw [arrivals, arrivals, served.pushes, served.overflow, served'.pushes, served'.overflow]
  · rw [callers, callers, served.takes, served'.takes]
    rfl
  · exact fun request hears => ((underway.listening_iff (first.pollAll_unanswered fired?) served
      (first.settle fired?).unanswered.seen request).mp hears).1
  · obtain ⟨later, passage, notices, done, once⟩ := first.passage fired?
    obtain ⟨later', passage', notices', done', -⟩ := second.passage fired?
    rw [← notices, ← notices'] at answers
    rw [done, done']
    refine byNumber_congr once ?_
    rw [ended]
    exact (passage.perm passage' (listening_congr polled.pending) (listening_congr pending)
      answers).append_left _

end CommandScript.Mailbox
