import CommandScript.Proofs.Mailbox.Waiting

/-!
# Why requests fail

A request fails for two reasons only: the mailbox does not run any more, or the request was made
with a token, and the token told its client to give up (`CommandScript.Mailbox.World.run_excused`).
-/

namespace CommandScript.Mailbox

variable {α : Type}

open History

/-! ## Requests and their tokens -/

/-- The token that an operation gives to the request that it makes. -/
def Operation.token? : Operation α → Option TokenId
  | .pushWith _ token => some token
  | .takeWith token => some token
  | .awaitToken token => some token
  | _ => none

/-- The request that an operation makes according to its reply, and the token that it gives to
it. -/
def Operation.tokened? (operation : Operation α) (reply : Reply α) : Option (RequestId × TokenId) :=
  operation.token?.bind fun token => reply.issue?.map fun issue => (issue.id, token)

/-- An operation that is not available gives no request a token. -/
theorem Operation.tokened?_unavailable (operation : Operation α) :
    operation.tokened? .unavailable = none := by
  cases operation <;> rfl

/-- The requests that operations in a row make with a token. -/
def tokensOfOperations : List (Operation α) → List (Reply α) → List (RequestId × TokenId)
  | operation :: operations, reply :: replies =>
    (operation.tokened? reply).toList ++ tokensOfOperations operations replies
  | _, _ => []

/-- The requests that are made with a token in a run. -/
def tokensOf : List (List (Operation α)) → List (World.Report α) → List (RequestId × TokenId)
  | operations :: steps, report :: reports =>
    tokensOfOperations operations report.replies ++ tokensOf steps reports
  | _, _ => []

/-- The tokens that clients wait with are those that they made their requests with. -/
def Tokened (mailbox : Mailbox α) (tokens : List (RequestId × TokenId)) : Prop :=
  ∀ pending ∈ mailbox.pending, ∀ token, pending.token = some token → (pending.id, token) ∈ tokens

/-- Whoever failed was told that the mailbox does not run, or by its token to give up. -/
def Founded (fires : TokenId → Failure → Prop) (tokens : List (RequestId × TokenId))
    (ended : List (RequestId × Outcome α)) : Prop :=
  ∀ request failure, (request, .error failure) ∈ ended →
    failure = .notRunning ∨ ∃ token, (request, token) ∈ tokens ∧ fires token failure

namespace Founded

variable {fires others : TokenId → Failure → Prop} {tokens more : List (RequestId × TokenId)}
  {ended later : List (RequestId × Outcome α)}

theorem nil : Founded fires tokens ([] : List (RequestId × Outcome α)) :=
  fun _ _ member => absurd member List.not_mem_nil

theorem append (first : Founded fires tokens ended) (second : Founded fires tokens later) :
    Founded fires tokens (ended ++ later) :=
  fun request failure member =>
    (List.mem_append.mp member).elim (first request failure) (second request failure)

/-- Failures stay founded when more tokens are known and more of them fire. -/
theorem mono (founded : Founded fires tokens ended)
    (known : ∀ request token, (request, token) ∈ tokens → (request, token) ∈ more)
    (signals : ∀ token failure, fires token failure → others token failure) :
    Founded others more ended := by
  intro request failure member
  refine (founded request failure member).imp_right fun ⟨token, made, fired⟩ => ?_
  exact ⟨token, known request token made, signals token failure fired⟩

end Founded

variable {mailbox : Mailbox α} {tokens : List (RequestId × TokenId)}
  {fired? : TokenId → Option Failure}

/-! ## Looking at requests -/

/-- The only failure that the actor answers with is that it does not run. -/
theorem Answer.outcome_error {answer : Answer α} {failure : Failure}
    (same : answer.outcome = .error failure) : failure = .notRunning := by
  cases answer <;> cases same
  rfl

/-- A look at a request ends it with a failure for a reason. -/
theorem poll_failure {pending : Pending} {failure : Failure}
    (ends : (mailbox.poll fired? pending).2 = some (.error failure)) :
    failure = .notRunning ∨
      ∃ token, pending.token = some token ∧ fired? token = some failure := by
  rcases poll_cases fired? mailbox pending with
    ⟨answer, -, polled⟩ | ⟨reason, -, signal, polled⟩ | ⟨-, -, polled⟩
  · rw [polled] at ends
    exact .inl (Answer.outcome_error (Option.some.inj ends))
  · rw [polled] at ends
    cases ends
    obtain ⟨token, made, fired⟩ := Option.bind_eq_some_iff.mp signal
    exact .inr ⟨token, made, fired⟩
  · rw [polled] at ends
    cases ends

/-- To poll a request makes none pending. -/
theorem poll_pending_subset (fired? : TokenId → Option Failure) (mailbox : Mailbox α)
    (pending : Pending) : (mailbox.poll fired? pending).1.pending ⊆ mailbox.pending := by
  have entered := enter_pending mailbox pending.id
  have left : ((mailbox.enter pending.id).forget pending.id).pending ⊆ mailbox.pending := by
    rw [← entered]
    exact List.filter_subset_self _
  rcases poll_cases fired? mailbox pending with
    ⟨answer, -, polled⟩ | ⟨failure, -, -, polled⟩ | ⟨-, -, polled⟩
  · exact polled ▸ left
  · exact polled ▸ left
  · rw [polled, entered]
    exact fun _ member => member

/-- To poll several requests makes none pending. -/
theorem pollEach_pending_subset (fired? : TokenId → Option Failure) (mailbox : Mailbox α)
    (requests : List Pending) :
    (mailbox.pollEach fired? requests).1.pending ⊆ mailbox.pending :=
  pollEach_induct (fun after => after.pending ⊆ mailbox.pending)
    (fun middle pending fewer =>
      List.Subset.trans (poll_pending_subset fired? middle pending) fewer)
    (List.Subset.refl _) requests

/-- The tokens of requests stay known when one is polled. -/
theorem Tokened.poll (tokened : Tokened mailbox tokens) (pending : Pending) :
    Tokened (mailbox.poll fired? pending).1 tokens :=
  fun other member => tokened other (poll_pending_subset fired? mailbox pending member)

/-- A look at several requests. -/
theorem pollEach_founded (mailbox : Mailbox α) {requests : List Pending}
    (tokened : ∀ pending ∈ requests, ∀ token, pending.token = some token →
      (pending.id, token) ∈ tokens) :
    Founded (fun token failure => fired? token = some failure) tokens
      (mailbox.pollEach fired? requests).2 := by
  induction requests generalizing mailbox with
  | nil => exact .nil
  | cons pending rest ih =>
      rw [pollEach_cons]
      refine .append ?_ (ih _ fun other member => tokened other (List.mem_cons_of_mem _ member))
      intro request failure member
      obtain ⟨outcome, ends, same⟩ := Option.map_eq_some_iff.mp (Option.mem_toList.mp member)
      cases same
      refine (poll_failure ends).imp_right fun ⟨token, made, fired⟩ => ?_
      exact ⟨token, tokened pending List.mem_cons_self token made, fired⟩

/-- A mailbox that comes to rest ends requests for a reason. -/
theorem Tokened.settleFor (tokened : Tokened mailbox tokens) (fired? : TokenId → Option Failure)
    (rounds : Nat) :
    Tokened (mailbox.settleFor fired? rounds).1 tokens ∧
      Founded (fun token failure => fired? token = some failure) tokens
        (mailbox.settleFor fired? rounds).2.done := by
  induction rounds generalizing mailbox with
  | zero =>
      exact ⟨pollEach_induct (fun after => Tokened after tokens)
        (fun _ pending kept => kept.poll pending) tokened mailbox.pending,
        pollEach_founded mailbox tokened⟩
  | succ rounds ih =>
      have polled : Tokened (mailbox.pollAll fired?).1 tokens :=
        pollEach_induct (fun after => Tokened after tokens)
          (fun _ pending kept => kept.poll pending) tokened mailbox.pending
      have served : Tokened (mailbox.pollAll fired?).1.serve.1 tokens := by
        intro pending member
        rw [(serve_emptied _).pending] at member
        exact polled pending member
      obtain ⟨final, later⟩ := ih served
      exact ⟨final, .append (pollEach_founded mailbox tokened) later⟩

/-- When a mailbox settles, only tokens that fire make requests fail. -/
theorem Tokened.settle (tokened : Tokened mailbox tokens) (fired? : TokenId → Option Failure) :
    Tokened (mailbox.settle fired?).1 tokens ∧
      Founded (fun token failure => fired? token = some failure) tokens
        (mailbox.settle fired?).2.done := by
  obtain ⟨final, founded⟩ := tokened.settleFor fired? mailbox.rounds
  refine ⟨final, fun request failure member => founded request failure ?_⟩
  exact (List.mergeSort_perm ..).mem_iff.mp member

/-! ## Issuing requests -/

/-- A request that is issued with a token may end at once, for a reason. -/
theorem Tokened.issue (tokened : Tokened mailbox tokens) (fired? : TokenId → Option Failure)
    (token : Option TokenId) {purpose : Purpose} {put : Mailbox α → RequestId → Mailbox α}
    (puts : Puts purpose put) :
    let made := tokens ++ (token.map fun token => (mailbox.nextRequest, token)).toList
    Tokened (mailbox.issue fired? token put).1 made ∧
      Founded (fun token failure => fired? token = some failure) made
        (mailbox.issue fired? token put).2.ended?.toList := by
  intro made
  have new (given : TokenId) (same : token = some given) :
      (mailbox.nextRequest, given) ∈ made := by
    rw [List.mem_append, same]
    exact .inr (List.mem_singleton.mpr rfl)
  constructor
  · refine Tokened.poll ?_ _
    intro pending member given same
    rw [puts.pending] at member
    rcases List.mem_append.mp member with earlier | last
    · exact List.mem_append_left _ (tokened pending earlier given same)
    · obtain rfl := List.mem_singleton.mp last
      exact new given same
  · intro request failure member
    obtain ⟨outcome, ends, same⟩ := Option.map_eq_some_iff.mp (Option.mem_toList.mp member)
    cases same
    exact (poll_failure ends).imp_right fun ⟨given, same, fired⟩ => ⟨given, new given same, fired⟩

/-! ## Runs -/

/-- What an operation tells of a request that ended at once has a reason. -/
theorem Tokened.operate {world : World α} (tokened : Tokened world.mailbox tokens)
    (operation : Operation α) :
    Tokened (world.operate operation).1.mailbox
        (tokens ++ (operation.tokened? (world.operate operation).2).toList) ∧
      Founded (fun token failure => world.signals.fired? token = some failure)
        (tokens ++ (operation.tokened? (world.operate operation).2).toList)
        (ofOperation operation (world.operate operation).2).ended := by
  have same : Tokened world.mailbox (tokens ++ []) := by
    rw [List.append_nil]
    exact tokened
  have pushed (value : α) (token : Option TokenId) :=
    tokened.issue world.signals.fired? token (puts_push value)
  unfold World.operate
  split
  · cases operation with
    | push value => exact pushed value none
    | tryPush value =>
        rw [World.perform_tryPush]
        split
        · exact ⟨same, .nil⟩
        · exact pushed value none
    | pushWith value token => exact pushed value (some token)
    | take => exact tokened.issue world.signals.fired? none puts_take
    | takeWith token => exact tokened.issue world.signals.fired? (some token) puts_take
    | wait => exact tokened.issue world.signals.fired? none puts_wait
    | awaitToken token => exact tokened.issue world.signals.fired? (some token) puts_token
    | abandon request =>
        exact ⟨fun pending member => same pending (List.filter_subset_self _ member), .nil⟩
    | _ => exact ⟨same, .nil⟩
  · rw [Operation.tokened?_unavailable, ofOperation_unavailable]
    exact ⟨same, .nil⟩

/-- At some moment of a run a token tells its clients to give up for a reason. -/
def World.Fires (world : World α) (steps : List (List (Operation α))) (token : TokenId)
    (failure : Failure) : Prop :=
  ∃ earlier operations others later, steps = earlier ++ (operations ++ others) :: later ∧
    ((world.run earlier).1.operateAll operations).1.signals.fired? token = some failure

/-- What fires in later steps fires in all. -/
theorem World.Fires.later {world : World α} {operations : List (Operation α)}
    {steps : List (List (Operation α))} {token : TokenId} {failure : Failure}
    (fires : (world.step operations).1.Fires steps token failure) :
    world.Fires (operations :: steps) token failure := by
  obtain ⟨earlier, front, others, later, rfl, fired⟩ := fires
  exact ⟨operations :: earlier, front, others, later, rfl, fired⟩

/-- What operations in a row tell of requests that ended has a reason. -/
theorem Tokened.operateAll {world : World α} (tokened : Tokened world.mailbox tokens)
    (operations : List (Operation α)) :
    let made := tokens ++ tokensOfOperations operations (world.operateAll operations).2
    Tokened (world.operateAll operations).1.mailbox made ∧
      Founded (fun token failure => ∃ front others, operations = front ++ others ∧
          (world.operateAll front).1.signals.fired? token = some failure) made
        (ofOperations operations (world.operateAll operations).2).ended := by
  induction operations generalizing world tokens with
  | nil =>
      have none : tokensOfOperations ([] : List (Operation α)) (world.operateAll []).2 = [] := by
        rw [tokensOfOperations.eq_def]
      rw [none, List.append_nil]
      exact ⟨tokened, .nil⟩
  | cons operation rest ih =>
      intro made
      obtain ⟨operated, now⟩ := tokened.operate operation
      obtain ⟨final, later⟩ := ih operated
      have whole : made = tokens ++ (operation.tokened? (world.operate operation).2).toList ++
          tokensOfOperations rest ((world.operate operation).1.operateAll rest).2 :=
        (List.append_assoc ..).symm
      rw [whole]
      refine ⟨final, .append (now.mono ?_ ?_) (later.mono (fun _ _ made => made) ?_)⟩
      · exact fun _ _ made => List.mem_append_left _ made
      · exact fun token failure fired => ⟨[], operation :: rest, rfl, fired⟩
      · rintro token failure ⟨front, others, rfl, fired⟩
        exact ⟨operation :: front, others, rfl, fired⟩

/-- Every request that fails in a run fails for a reason. -/
theorem World.run_excused {world : World α} (tokened : Tokened world.mailbox tokens)
    (steps : List (List (Operation α))) :
    let made := tokens ++ tokensOf steps (world.run steps).2
    Tokened (world.run steps).1.mailbox made ∧
      Founded (world.Fires steps) made (ofRun steps (world.run steps).2).ended := by
  induction steps generalizing world tokens with
  | nil =>
      have none : tokensOf ([] : List (List (Operation α))) (world.run []).2 = [] := rfl
      rw [none, List.append_nil]
      exact ⟨tokened, .nil⟩
  | cons operations rest ih =>
      intro made
      obtain ⟨operated, now⟩ := tokened.operateAll operations
      obtain ⟨settled, resting⟩ := operated.settle (world.operateAll operations).1.signals.fired?
      have stepped : Tokened (world.step operations).1.mailbox _ := settled
      obtain ⟨final, last⟩ := ih stepped
      have whole : made = tokens ++ tokensOfOperations operations (world.operateAll operations).2 ++
          tokensOf rest ((world.step operations).1.run rest).2 := (List.append_assoc ..).symm
      rw [whole]
      refine ⟨final, .append (.append (now.mono (fun _ _ => List.mem_append_left _) ?_)
        (resting.mono (fun _ _ => List.mem_append_left _) ?_))
        (last.mono (fun _ _ made => made) fun _ _ => World.Fires.later)⟩
      · rintro token failure ⟨front, others, rfl, fired⟩
        exact ⟨[], front, others, rest, rfl, fired⟩
      · intro token failure fired
        exact ⟨[], operations, [], rest, by rw [List.append_nil]; rfl, fired⟩

end CommandScript.Mailbox
