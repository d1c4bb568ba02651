import CommandScript.Proofs.Mailbox.Bookkeeping

/-!
# No value is lost or doubled

Every value that is pushed has exactly one fate, and it is the one that its push was told: if the
push ended well, the value is handed to exactly one client, or is buffered, or was lost to overflow,
or was cleared away; if the push failed or was given up, the value never was in the mailbox at all
(`CommandScript.Mailbox.run_conserves`).
-/

namespace CommandScript.Mailbox

variable {α : Type}

open History

/-! ## Operations -/

/-- A push comes in with its item. -/
theorem putPush_shift (mailbox : Mailbox α) (value : α) (request : RequestId) :
    Shift [request] (ofPushed request (some value)).pushed [request] mailbox
      (putPush value mailbox request) := by
  unfold putPush
  split
  · refine ⟨rfl, rfl, rfl, rfl, fun other => ?_, fun _ => Or.imp_right .inl, fun _ => .inl,
      fun entry member => ?_, grants_outcomes_record _ _⟩
    · simp only [record, standing, List.map_append, List.map_cons, List.map_nil,
        List.count_append]
      omega
    · rw [record, List.mem_append, List.mem_singleton] at member
      exact member.imp_right fun same => List.mem_singleton.mpr (congrArg Prod.fst same)
  · split
    · refine ⟨rfl, rfl, rfl, rfl, fun other => ?_, fun item present => ?_, fun _ => .inl,
        fun _ => .inl, rfl⟩
      · simp only [standing, List.map_append, List.map_cons, List.map_nil, List.count_append]
        omega
      · rw [List.mem_append] at present
        exact (or_assoc.mp present).imp_right Or.symm
    · refine ⟨rfl, rfl, rfl, rfl, fun other => ?_, fun item present => ?_, fun _ => .inl,
        fun _ => .inl, rfl⟩
      · simp only [standing, List.map_append, List.map_cons, List.map_nil, List.count_append]
        omega
      · rw [List.mem_append] at present
        exact present

theorem putTake_shift (mailbox : Mailbox α) (request : RequestId) :
    Shift [request] [] [request] mailbox (putTake mailbox request) := by
  refine ⟨rfl, rfl, rfl, rfl, fun other => ?_, fun _ => Or.imp_right .inl, fun other member => ?_,
    fun _ => .inl, rfl⟩
  · simp only [putTake, standing, ReadQueue.requests, ReadQueue.join, List.count_append]
    omega
  · simp only [putTake, readers, ReadQueue.requests, ReadQueue.join, List.mem_append] at member ⊢
    tauto

theorem putWait_shift (mailbox : Mailbox α) (request : RequestId) :
    Shift [request] [] [request] mailbox (putWait mailbox request) := by
  refine ⟨rfl, rfl, rfl, rfl, fun other => ?_, fun _ => Or.imp_right .inl, fun other member => ?_,
    fun _ => .inl, rfl⟩
  · simp only [putWait, standing, ReadQueue.requests, ReadQueue.join, List.count_append]
    omega
  · simp only [putWait, readers, ReadQueue.requests, ReadQueue.join, List.mem_append] at member ⊢
    tauto

/-- To give up a request that is not pending changes nothing of note. -/
theorem Books.forget_absent {mailbox : Mailbox α} {history : History α}
    (books : Books mailbox history) (seen : mailbox.answers = []) {request : RequestId}
    (absent : mailbox.listening request = false) : Books (mailbox.forget request) history := by
  have pending : (mailbox.forget request).pending = mailbox.pending := by
    rw [Mailbox.forget, List.filter_eq_self]
    intro pending member
    refine decide_eq_true fun same => ?_
    rw [← same, listening_of_mem member] at absent
    cases absent
  have answers : (mailbox.forget request).answers = mailbox.answers := by
    rw [Mailbox.forget, seen]
    rfl
  have shift : Shift [] [] [] mailbox (mailbox.forget request) := by
    refine ⟨rfl, pending, rfl, rfl, fun other => ?_, fun _ => Or.imp_right .inl,
      fun other member => ?_, fun entry member => .inl (answers ▸ member), answers ▸ rfl⟩
    · have takes : (mailbox.takes.line.filter fun entry => entry ≠ request).count other ≤
          mailbox.takes.line.count other := List.filter_sublist.count_le other
      have waits : (mailbox.waits.line.filter fun entry => entry ≠ request).count other ≤
          mailbox.waits.line.count other := List.filter_sublist.count_le other
      simp only [standing, answers]
      simp only [Mailbox.forget, ReadQueue.requests, ReadQueue.leave, List.count_append]
      omega
    · rw [mem_readers] at member ⊢
      simp only [Mailbox.forget, ReadQueue.leave, List.mem_filter] at member
      exact .inl (member.imp_left fun lines => lines.imp And.left And.left)
  exact books.shift shift (fun _ member => absurd member List.not_mem_nil) books.places
    (fun _ member => absurd member List.not_mem_nil)
    (fun _ _ member => absurd member List.not_mem_nil)

/-- The input is asked to be closed. -/
theorem Books.close {mailbox : Mailbox α} {history : History α} (books : Books mailbox history) :
    Books mailbox.close history :=
  { books with
    intact := fun kept => by
      obtain ⟨undiscarded, running⟩ := books.intact kept
      refine ⟨fun member => ?_, running⟩
      rcases List.mem_append.mp member with asked | new
      · exact undiscarded asked
      · cases List.mem_singleton.mp new }

/-- A handle is made or dropped. -/
theorem Books.changeHandles {mailbox : Mailbox α} {history : History α}
    (books : Books mailbox history) (change : HandleChange) :
    Books (mailbox.changeHandles change) history :=
  { books with }

/-- The mailbox is asked to be discarded. -/
theorem Books.discard {mailbox : Mailbox α} {history : History α} (books : Books mailbox history) :
    Books mailbox.discard (history ++ ofOperation .discard .silent) := by
  have pushed : (history ++ ofOperation .discard .silent).pushed = history.pushed :=
    List.append_nil _
  have ended : (history ++ ofOperation .discard .silent).ended = history.ended :=
    List.append_nil _
  have abandoned : (history ++ ofOperation .discard .silent).abandoned = history.abandoned :=
    List.append_nil _
  have notices : (history ++ ofOperation .discard .silent).notices = history.notices :=
    List.append_nil _
  exact
    { requests := by rw [ended, abandoned]; exact books.requests
      places := books.places
      awaited := books.awaited
      distinct := by rw [pushed]; exact books.distinct
      issued := by rw [pushed]; exact books.issued
      known := by rw [pushed, notices]; exact books.known
      reading := by rw [pushed, notices]; exact books.reading
      granted := by rw [notices, ended]; exact books.granted
      balance := by rw [notices]; exact books.balance
      blamed := by rw [notices]; exact books.blamed
      counted := by rw [notices]; exact books.counted
      published := books.published
      intact := fun kept => by rw [givenUp_append, Bool.or_eq_false_iff] at kept; cases kept.2 }

/-- One operation keeps the books, and leaves no answer unseen. -/
theorem Books.operate {world : World α} {history : History α}
    (books : Books world.mailbox history) (seen : world.mailbox.answers = [])
    (operation : Operation α) :
    Books (world.operate operation).1.mailbox
        (history ++ ofOperation operation (world.operate operation).2) ∧
      (world.operate operation).1.mailbox.answers = [] := by
  have unmoved : Books world.mailbox (history ++ History.empty) ∧ world.mailbox.answers = [] :=
    ⟨(History.append_empty history).symm ▸ books, seen⟩
  have pushed (value : α) (token : Option TokenId) :=
    books.issue seen world.signals.fired? token (some value) (putPush value)
      (putPush_shift _ value _)
  unfold World.operate
  split
  · cases operation with
    | push value => exact pushed value none
    | tryPush value =>
        rw [World.perform_tryPush]
        split
        · exact unmoved
        · exact pushed value none
    | pushWith value token => exact pushed value (some token)
    | take => exact books.issue seen world.signals.fired? none none putTake (putTake_shift _ _)
    | takeWith token =>
        exact books.issue seen world.signals.fired? (some token) none putTake (putTake_shift _ _)
    | wait => exact books.issue seen world.signals.fired? none none putWait (putWait_shift _ _)
    | awaitToken token =>
        refine books.issue seen world.signals.fired? (some token) none (fun mailbox _ => mailbox) ?_
        exact ⟨rfl, rfl, rfl, rfl, fun _ => Nat.le_add_right .., fun _ => Or.imp_right .inl,
          fun _ => .inl, fun _ => .inl, rfl⟩
    | abandon request =>
        have answers : (world.mailbox.forget request).answers = [] := by
          rw [Mailbox.forget, seen]
          rfl
        refine ⟨?_, answers⟩
        have told : (world.perform (.abandon request)).2 =
            .abandoned (world.mailbox.listening request) := rfl
        rw [told]
        cases hears : world.mailbox.listening request with
        | true =>
            refine books.forget hears rfl ?_ rfl rfl rfl
            rw [seen]
            exact .refl _
        | false =>
            exact (History.append_empty history).symm ▸ books.forget_absent seen hears
    | close => exact ⟨(History.append_empty history).symm ▸ books.close, seen⟩
    | discard => exact ⟨books.discard, seen⟩
    | changeHandles change =>
        exact ⟨(History.append_empty history).symm ▸ books.changeHandles change, seen⟩
    | rest => exact unmoved
    | newToken timeout => exact unmoved
    | cancel token => exact unmoved
    | advance span => exact unmoved
    | lookAtToken token => exact unmoved
    | lookAtMailbox => exact unmoved
  · rw [ofOperation_unavailable]
    exact unmoved

/-! ## Runs -/

/-- The books stay in order through any number of operations. -/
theorem Books.operateAll {world : World α} {history : History α}
    (books : Books world.mailbox history) (seen : world.mailbox.answers = [])
    (operations : List (Operation α)) :
    Books (world.operateAll operations).1.mailbox
        (history ++ ofOperations operations (world.operateAll operations).2) ∧
      (world.operateAll operations).1.mailbox.answers = [] := by
  induction operations generalizing world history with
  | nil => exact ⟨(History.append_empty history).symm ▸ books, seen⟩
  | cons operation rest ih =>
      obtain ⟨operated, unseen⟩ := books.operate seen operation
      obtain ⟨final, last⟩ := ih operated unseen
      rw [History.append_assoc] at final
      exact ⟨final, last⟩

/-- A run keeps the books, and leaves no answer unseen. -/
theorem Books.run {world : World α} {history : History α} (books : Books world.mailbox history)
    (seen : world.mailbox.answers = []) (steps : List (List (Operation α))) :
    Books (world.run steps).1.mailbox (history ++ ofRun steps (world.run steps).2) ∧
      (world.run steps).1.mailbox.answers = [] := by
  induction steps generalizing world history with
  | nil => exact ⟨(History.append_empty history).symm ▸ books, seen⟩
  | cons operations rest ih =>
      obtain ⟨operated, -⟩ := books.operateAll seen operations
      obtain ⟨settled, unseen⟩ :=
        operated.settle (world.operateAll operations).1.signals.fired?
      obtain ⟨final, last⟩ :
          Books ((world.step operations).1.run rest).1.mailbox _ ∧ _ := ih settled unseen
      rw [History.append_assoc, History.append_assoc] at final
      rw [← History.append_assoc _ _ (ofRun rest _)] at final
      exact ⟨final, last⟩

/-! ## Fates -/

/-- What a history and the mailbox that it leads to say of the fate of every pushed value. -/
structure Conserved (mailbox : Mailbox α) (history : History α) : Prop where
  /-- Every request that was issued ended once, or was given up once, or is pending. -/
  requests : (history.ended.map Prod.fst ++ history.abandoned ++
    mailbox.pending.map Pending.id).Perm (List.range mailbox.nextRequest)
  /-- Every pushed value has a push of its own. -/
  distinct : (history.pushed.map Item.push).Nodup
  issued : ∀ item ∈ history.pushed, item.push < mailbox.nextRequest
  /-- A push is acknowledged or fails. -/
  outcome : ∀ item ∈ history.pushed, ∀ outcome, (item.push, outcome) ∈ history.ended →
    outcome = .ok .accepted ∨ ∃ failure, outcome = .error failure
  /-- The values whose push ended well are those that were taken, are buffered, were lost to
  overflow, or were cleared away; each of them is counted once. -/
  fates : history.acknowledged.Perm (history.taken.map Prod.snd ++ mailbox.actor.buffer ++
    history.overflowed.map Prod.fst ++ history.cleared)
  /-- An item leaves with the request that ends with it, and with no other one. -/
  handed : history.handed.Perm history.taken
  /-- A value whose push failed or was given up is nowhere, and makes no other one overflow. -/
  spared : ∀ item, history.Failed item →
    item ∉ mailbox.actor.buffer ∧ item ∉ history.handed.map Prod.snd ∧
      item ∉ history.overflowed.map Prod.fst ∧ item ∉ history.cleared ∧
        item.push ∉ history.overflowed.map Prod.snd
  /-- A request that ended with a failure or was given up takes nothing. -/
  untaken : ∀ request,
    (∃ failure, (request, .error failure) ∈ history.ended) ∨ request ∈ history.abandoned →
      request ∉ history.handed.map Prod.fst
  /-- Until the mailbox is discarded the numbers add up. -/
  counted : history.givenUp = false → history.acknowledged.length =
    history.taken.length + mailbox.depth + mailbox.discarded

/-- The push that a granted answer acknowledges. -/
def acceptance? (entry : RequestId × Answer α) : Option RequestId :=
  match entry.2 with
  | .accepted => some entry.1
  | _ => none

/-- What was handed over can be read off the answers that were granted. -/
theorem handed_eq (history : History α) :
    history.handed = (grants (outcomes (history.notices.filterMap Notice.answer?))).filterMap
      fun entry => entry.2.item?.map fun item => (entry.1, item) := by
  rw [History.handed, grants, outcomes, List.filterMap_filterMap, List.filterMap_map,
    List.filterMap_filterMap]
  congr 1
  funext notice
  rcases notice with ⟨request, _ | item | _ | _⟩ | ⟨item, overflowing⟩ | item <;> rfl

/-- What was accepted can be read off the answers that were granted. -/
theorem accepted_eq (history : History α) :
    history.notices.filterMap Notice.accepted? =
      (grants (outcomes (history.notices.filterMap Notice.answer?))).filterMap acceptance? := by
  rw [grants, outcomes, List.filterMap_filterMap, List.filterMap_map, List.filterMap_filterMap]
  congr 1
  funext notice
  rcases notice with ⟨request, _ | item | _ | _⟩ | ⟨item, overflowing⟩ | item <;> rfl

/-- An item departs with a client, or by overflow, or when the mailbox is cleared. -/
theorem departed_perm (notices : List (Notice α)) :
    (notices.filterMap Notice.departed?).Perm
      ((notices.filterMap Notice.handed?).map Prod.snd ++
        (notices.filterMap Notice.eviction?).map Prod.fst ++
          notices.filterMap Notice.cleared?) := by
  induction notices with
  | nil => exact .refl _
  | cons notice rest ih =>
      rcases notice with ⟨request, _ | item | _ | _⟩ | ⟨item, overflowing⟩ | item
      · exact ih
      · exact ih.cons item
      · exact ih
      · exact ih
      · exact (ih.cons item).trans (List.perm_middle.symm.append_right _)
      · exact (ih.cons item).trans List.perm_middle.symm

namespace Books

variable {mailbox : Mailbox α} {history : History α}

/-- No request ends twice. -/
theorem ended_nodup (books : Books mailbox history) : (history.ended.map Prod.fst).Nodup := by
  rw [List.nodup_iff_count]
  intro request
  have known := books.requests request
  have once := List.nodup_iff_count.mp (List.nodup_range (n := mailbox.nextRequest)) request
  omega

/-- A request ends in one way. -/
theorem outcome_unique (books : Books mailbox history) {request : RequestId}
    {outcome other : Outcome α} (first : (request, outcome) ∈ history.ended)
    (second : (request, other) ∈ history.ended) : outcome = other :=
  congrArg Prod.snd (List.inj_on_of_nodup_map books.ended_nodup first second rfl)

/-- A request that was given up never ends. -/
theorem not_ended_of_abandoned (books : Books mailbox history) {request : RequestId}
    (abandoned : request ∈ history.abandoned) (outcome : Outcome α) :
    (request, outcome) ∉ history.ended := by
  intro ended
  have known := books.requests request
  have once := List.nodup_iff_count.mp (List.nodup_range (n := mailbox.nextRequest)) request
  have first : 0 < (history.ended.map Prod.fst).count request :=
    List.count_pos_iff.mpr (List.mem_map_of_mem ended)
  have second := List.count_pos_iff.mpr abandoned
  omega

end Books

/-- An answer is granted where a request has ended with it. -/
theorem mem_grants {ended : List (RequestId × Outcome α)} {request : RequestId}
    {answer : Answer α} :
    (request, answer) ∈ grants ended ↔ (request, .ok answer) ∈ ended := by
  rw [grants, List.mem_filterMap]
  constructor
  · rintro ⟨⟨other, outcome⟩, member, same⟩
    cases outcome with
    | error failure => cases same
    | ok answer =>
        cases same
        exact member
  · exact fun member => ⟨(request, .ok answer), member, rfl⟩

namespace Books

variable {mailbox : Mailbox α} {history : History α}

/-- Once no answer is unseen, the answers that were given are those that ended requests. -/
theorem granted_of_seen (books : Books mailbox history) (seen : mailbox.answers = []) :
    (grants (outcomes (history.notices.filterMap Notice.answer?))).Perm
      (grants history.ended) := by
  have granted := books.granted
  rw [seen] at granted
  exact granted.trans (.of_eq (List.append_nil _))

/-- A push is acknowledged when its client is told so. -/
theorem mem_accepted_iff (books : Books mailbox history) (seen : mailbox.answers = [])
    {push : RequestId} :
    push ∈ history.notices.filterMap Notice.accepted? ↔ (push, .ok .accepted) ∈ history.ended := by
  rw [accepted_eq, ((books.granted_of_seen seen).filterMap acceptance?).mem_iff,
    List.mem_filterMap]
  constructor
  · rintro ⟨⟨request, answer⟩, member, same⟩
    cases answer with
    | accepted =>
        cases same
        exact mem_grants.mp member
    | _ => cases same
  · exact fun member => ⟨(push, .accepted), mem_grants.mpr member, rfl⟩

/-- A push is acknowledged or fails. -/
theorem push_outcome (books : Books mailbox history) (seen : mailbox.answers = []) {item : Item α}
    (pushed : item ∈ history.pushed) {outcome : Outcome α}
    (ended : (item.push, outcome) ∈ history.ended) :
    outcome = .ok .accepted ∨ ∃ failure, outcome = .error failure := by
  cases outcome with
  | error failure => exact .inr ⟨failure, rfl⟩
  | ok answer =>
      left
      have given := (books.granted_of_seen seen).mem_iff.mpr (mem_grants.mpr ended)
      obtain ⟨entry, answered, same⟩ := List.mem_map.mp (mem_grants.mp given)
      obtain ⟨notice, told, brings⟩ := List.mem_filterMap.mp answered
      have unserved : item.push ∉ history.notices.filterMap Notice.served? := fun served =>
        (books.reading item.push (.inr served)).2 (List.mem_map_of_mem pushed)
      cases notice with
      | evicted => cases brings
      | cleared => cases brings
      | answered request reply =>
          cases brings
          cases reply with
          | accepted => cases same; rfl
          | notRunning => cases same
          | delivered item =>
              cases same
              exact (unserved (List.mem_filterMap.mpr ⟨_, told, rfl⟩)).elim
          | ready =>
              cases same
              exact (unserved (List.mem_filterMap.mpr ⟨_, told, rfl⟩)).elim

/-- An item is acknowledged just when its push has ended well. -/
theorem mem_acknowledged_iff (books : Books mailbox history) (seen : mailbox.answers = [])
    {item : Item α} :
    item ∈ history.acknowledged ↔
      item ∈ history.pushed ∧ (item.push, .ok .accepted) ∈ history.ended := by
  rw [History.acknowledged, List.mem_filter]
  refine and_congr_right fun pushed => ?_
  rw [List.any_eq_true]
  constructor
  · rintro ⟨⟨request, outcome⟩, ended, same⟩
    rw [Bool.and_eq_true, decide_eq_true_eq] at same
    obtain ⟨rfl, well⟩ := same
    rcases books.push_outcome seen pushed ended with rfl | ⟨failure, rfl⟩
    · exact ended
    · cases well
  · exact fun ended => ⟨_, ended, by simp [Except.isOk, Except.toBool]⟩

/-- No push is accepted twice. -/
theorem accepted_nodup (books : Books mailbox history) (seen : mailbox.answers = []) :
    (history.notices.filterMap Notice.accepted?).Nodup := by
  rw [accepted_eq, ((books.granted_of_seen seen).filterMap acceptance?).nodup_iff]
  have granted : (grants history.ended).Nodup := by
    refine (books.ended_nodup.of_map _).filterMap ?_
    rintro ⟨request, outcome⟩ ⟨other, outcome'⟩ entry member member'
    cases outcome <;> cases outcome' <;> cases member <;> cases member'
    rfl
  refine granted.filterMap ?_
  rintro ⟨request, answer⟩ ⟨other, answer'⟩ push member member'
  cases answer <;> cases answer' <;> cases member <;> cases member'
  rfl

/-- The items that are buffered or have departed are those that were acknowledged. -/
theorem acknowledged_perm (books : Books mailbox history) (seen : mailbox.answers = []) :
    history.acknowledged.Perm
      (mailbox.actor.buffer ++ history.notices.filterMap Notice.departed?) := by
  have ids : (history.notices.filterMap Notice.accepted?).Perm
      ((mailbox.actor.buffer ++ history.notices.filterMap Notice.departed?).map Item.push) := by
    rw [List.perm_iff_count]
    intro push
    rw [List.map_append, List.count_append]
    exact books.balance push
  have known (item : Item α)
      (member : item ∈ mailbox.actor.buffer ++ history.notices.filterMap Notice.departed?) :
      item ∈ history.pushed := by
    rcases List.mem_append.mp member with buffered | departed
    · exact books.known item (.inr (.inr (.inl buffered)))
    · exact books.known item (.inr (.inr (.inr (.inr departed))))
  have once : ((mailbox.actor.buffer ++
      history.notices.filterMap Notice.departed?).map Item.push).Nodup :=
    ids.nodup_iff.mp (books.accepted_nodup seen)
  have acknowledged : history.acknowledged.Nodup := (books.distinct.of_map _).filter _
  rw [List.perm_ext_iff_of_nodup acknowledged (once.of_map _)]
  intro item
  rw [books.mem_acknowledged_iff seen, ← books.mem_accepted_iff seen, ids.mem_iff]
  constructor
  · rintro ⟨pushed, member⟩
    obtain ⟨other, present, same⟩ := List.mem_map.mp member
    rwa [← List.inj_on_of_nodup_map books.distinct (known other present) pushed same]
  · exact fun member => ⟨known item member, List.mem_map_of_mem member⟩

end Books

variable {mailbox : Mailbox α} {history : History α}

/-- A request that failed or was given up got no answer. -/
theorem Books.unanswered (books : Books mailbox history) {request : RequestId}
    (failed : (∃ failure, (request, .error failure) ∈ history.ended) ∨
      request ∈ history.abandoned) (answer : Answer α) :
    (request, .ok answer) ∉ history.ended := by
  intro answered
  rcases failed with ⟨failure, ended⟩ | abandoned
  · cases books.outcome_unique answered ended
  · exact books.not_ended_of_abandoned abandoned _ answered

/-- Whoever has taken an item has ended with it. -/
theorem mem_taken {request : RequestId} {item : Item α} (taken : (request, item) ∈ history.taken) :
    (request, .ok (.delivered item)) ∈ history.ended := by
  obtain ⟨⟨other, answer⟩, member, same⟩ := List.mem_filterMap.mp taken
  cases answer with
  | delivered handed =>
      cases same
      exact mem_grants.mp member
  | _ => cases same

/-- The books of a mailbox that has come to rest say what became of every pushed value. -/
theorem Books.conserved (books : Books mailbox history) (seen : mailbox.answers = []) :
    Conserved mailbox history := by
  have handed : history.handed.Perm history.taken := by
    rw [handed_eq]
    exact (books.granted_of_seen seen).filterMap _
  have departed : (history.notices.filterMap Notice.departed?).Perm
      (history.taken.map Prod.snd ++ history.overflowed.map Prod.fst ++ history.cleared) :=
    (departed_perm history.notices).trans
      (((handed.map Prod.snd).append_right _).append_right _)
  have fates : history.acknowledged.Perm (history.taken.map Prod.snd ++ mailbox.actor.buffer ++
      history.overflowed.map Prod.fst ++ history.cleared) := by
    refine ((books.acknowledged_perm seen).trans (departed.append_left _)).trans ?_
    rw [← List.append_assoc, ← List.append_assoc]
    exact (List.perm_append_comm.append_right _).append_right _
  have unacknowledged {item : Item α} (failed : history.Failed item) :
      item ∉ history.taken.map Prod.snd ++ mailbox.actor.buffer ++
        history.overflowed.map Prod.fst ++ history.cleared := by
    rw [← fates.mem_iff, books.mem_acknowledged_iff seen]
    exact fun acknowledged => books.unanswered failed.2 _ acknowledged.2
  refine
    { requests := ?_
      distinct := books.distinct
      issued := books.issued
      outcome := fun item pushed outcome ended => books.push_outcome seen pushed ended
      fates := fates
      handed := handed
      spared := fun item failed => ?_
      untaken := fun request failed member => ?_
      counted := fun kept => ?_ }
  · rw [List.perm_iff_count]
    intro request
    rw [List.count_append, List.count_append]
    exact books.requests request
  · have nowhere := unacknowledged failed
    simp only [List.mem_append, not_or] at nowhere
    obtain ⟨⟨⟨untaken, unbuffered⟩, kept⟩, uncleared⟩ := nowhere
    refine ⟨unbuffered, (handed.map Prod.snd).mem_iff.not.mpr untaken, kept, uncleared, ?_⟩
    intro blamed
    obtain ⟨eviction, member, same⟩ := List.mem_map.mp blamed
    have accepted := (books.mem_accepted_iff seen).mp (books.blamed eviction member)
    rw [same] at accepted
    exact books.unanswered failed.2 _ accepted
  · obtain ⟨⟨other, item⟩, present, rfl⟩ := List.mem_map.mp member
    exact books.unanswered failed _ (mem_taken (handed.mem_iff.mp present))
  · have cleared : history.cleared = [] := (books.intact kept).2.2
    have depth : mailbox.depth = mailbox.actor.buffer.length := books.published
    have discarded : mailbox.discarded = history.overflowed.length := books.counted
    have total := fates.length_eq
    rw [cleared] at total
    simp only [List.length_append, List.length_map, List.length_nil] at total
    omega

/-- Runs may be told in two parts. -/
theorem ofRun_append (world : World α) (front back : List (List (Operation α))) :
    ofRun (front ++ back) (world.run (front ++ back)).2 =
      ofRun front (world.run front).2 ++ ofRun back ((world.run front).1.run back).2 := by
  induction front generalizing world with
  | nil => exact (History.empty_append _).symm
  | cons operations rest ih =>
      have split := ih (world.step operations).1
      change _ ++ _ ++ ofRun (rest ++ back) ((world.step operations).1.run (rest ++ back)).2 = _
      rw [split, ← History.append_assoc]
      rfl

/-- No value is lost or doubled: after every run of a mailbox, each pushed value has exactly one
fate, the one that its push was told, and a value whose push fails in the course of the run is not
in the buffer at any time. -/
theorem run_conserves (capacity : Nat) (policy : Policy) (slots : Nat)
    (front back : List (List (Operation α))) :
    let midway := (World.start capacity policy slots).run front
    let final := (World.start capacity policy slots).run (front ++ back)
    let history := ofRun (front ++ back) final.2
    Conserved final.1.mailbox history ∧
      ∀ item, history.Failed item → item ∉ midway.1.mailbox.actor.buffer := by
  intro midway final history
  have start : Books (World.start capacity policy slots : World α).mailbox History.empty :=
    Books.fresh capacity policy slots
  obtain ⟨books, seen⟩ := start.run rfl (front ++ back)
  obtain ⟨early, unseen⟩ := start.run rfl front
  rw [History.empty_append] at books early
  refine ⟨books.conserved seen, fun item failed buffered => ?_⟩
  have acknowledged : item ∈ (ofRun front midway.2).acknowledged :=
    (early.acknowledged_perm unseen).mem_iff.mpr (List.mem_append_left _ buffered)
  have ended := ((early.mem_acknowledged_iff unseen).mp acknowledged).2
  have later : (item.push, .ok .accepted) ∈ history.ended := by
    change _ ∈ (ofRun (front ++ back) _).ended
    rw [ofRun_append, ended_append]
    exact List.mem_append_left _ ended
  exact books.unanswered failed.2 _ later

end CommandScript.Mailbox
