import CommandScript.Proofs.Mailbox.Order

/-!
# No client is forgotten

An actor never loses sight of a client that listens: its request stays where it waits until an
answer reaches the client (`CommandScript.Mailbox.Actor.run_keeps`). Only who no longer listens is
passed over.
-/

namespace CommandScript.Mailbox

variable {α : Type}

/-- What a request asks for. -/
inductive Purpose where
  | push
  | take
  | wait
  /-- Only a token can end the request. -/
  | token
deriving DecidableEq, Repr

/-- The wait that an event brings to the actor. -/
def Event.waiter? : Event α → Option RequestId
  | .wait request => some request
  | _ => none

/-- The request of a purpose that an event brings to the actor. -/
def Event.asking? : Purpose → Event α → Option RequestId
  | .push, event => event.item?.map Item.push
  | .take, event => event.taker?
  | .wait, event => event.waiter?
  | .token, _ => none

/-- The request of a purpose is the request that the event brings. -/
theorem Event.request?_of_asking? {purpose : Purpose} {event : Event α} {request : RequestId}
    (asks : event.asking? purpose = some request) : event.request? = some request := by
  cases purpose <;> cases event <;> first
    | exact asks
    | cases asks

/-- A push or a take whose client listens has a client that is said to be present. -/
def Event.Attentive (listening : RequestId → Bool) : Event α → Prop
  | .push item present => listening item.push = true → present = true
  | .take request present => listening request = true → present = true
  | _ => True

/-- The requests that notices bring answers to. -/
def answered (notices : List (Notice α)) : List RequestId :=
  (notices.filterMap Notice.answer?).map Prod.fst

/-- The requests answered, one stretch after the other. -/
theorem answered_append (told more : List (Notice α)) :
    answered (told ++ more) = answered told ++ answered more := by
  rw [answered, List.filterMap_append, List.map_append]
  rfl

namespace Actor

/-- The requests of a purpose that the actor cannot answer yet. -/
def waiting (actor : Actor α) : Purpose → List RequestId
  | .push => actor.blocked.map Item.push
  | .take => actor.takers
  | .wait => actor.waiters
  | .token => []

/-- Whoever listens and waits, or comes in, goes on waiting or gets an answer. -/
def Keeps (listening : RequestId → Bool) (events : List (Event α)) (before after : Actor α)
    (notices : List (Notice α)) : Prop :=
  ∀ (purpose : Purpose) (request : RequestId), listening request = true →
    request ∈ before.waiting purpose ∨ request ∈ events.filterMap (Event.asking? purpose) →
      request ∈ after.waiting purpose ∨ request ∈ answered notices

namespace Keeps

variable {listening : RequestId → Bool} {events first second : List (Event α)}
  {before middle after : Actor α} {notices told more : List (Notice α)}

theorem trans (front : Keeps listening first before middle told)
    (back : Keeps listening second middle after more) :
    Keeps listening (first ++ second) before after (told ++ more) := by
  intro purpose request hears present
  rw [List.filterMap_append, List.mem_append] at present
  rw [answered_append, List.mem_append]
  have early := front purpose request hears
  have late := back purpose request hears
  tauto

theorem before_events (front : Keeps listening [] before middle told)
    (back : Keeps listening events middle after more) :
    Keeps listening events before after (told ++ more) :=
  front.trans back

theorem after_events (front : Keeps listening events before middle told)
    (back : Keeps listening [] middle after more) :
    Keeps listening events before after (told ++ more) := by
  simpa only [List.append_nil] using front.trans back

/-- Where no event brings a request, it is enough that those who wait are kept. -/
theorem of_waiting (none : ∀ purpose, events.filterMap (Event.asking? purpose) = [])
    (kept : ∀ purpose request, listening request = true → request ∈ before.waiting purpose →
      request ∈ after.waiting purpose ∨ request ∈ answered notices) :
    Keeps listening events before after notices := by
  intro purpose request hears present
  rw [none purpose] at present
  exact kept purpose request hears (present.resolve_right List.not_mem_nil)

theorem refl (actor : Actor α) : Keeps listening [] actor actor [] :=
  of_waiting (fun _ => rfl) fun _ _ _ => .inl

end Keeps

variable {listening : RequestId → Bool} {before after : Actor α} {notices : List (Notice α)}

/-- Whoever listens hears an answer that is given to it among others. -/
theorem mem_answered_answerAll {requests : List RequestId} {request : RequestId} (reply : Answer α)
    (hears : listening request = true) (member : request ∈ requests) :
    request ∈ answered (answerAll listening requests reply) := by
  rw [answered, filterMap_answer?_answerAll, List.map_map]
  exact List.mem_map.mpr ⟨request, List.mem_filter.mpr ⟨member, hears⟩, rfl⟩

/-- An answer reaches a client that listens. -/
theorem mem_answered_answer {request : RequestId} (reply : Answer α)
    (hears : listening request = true) : request ∈ answered (answer listening request reply) := by
  rw [answer, if_pos hears]
  exact List.mem_singleton.mpr rfl

/-- Those who wait for items get an answer when none will come. -/
theorem failWaiting_keeps (actor : Actor α) :
    Keeps listening [] actor (actor.failWaiting listening).1 (actor.failWaiting listening).2 := by
  refine .of_waiting (fun _ => rfl) fun purpose request hears present => ?_
  rw [failWaiting, answered_append, List.mem_append]
  cases purpose with
  | push => exact .inl present
  | take => exact .inr (.inl (mem_answered_answerAll .notRunning hears present))
  | wait => exact .inr (.inr (mem_answered_answerAll .notRunning hears present))
  | token => cases present

/-- The first of a list is dealt with, and the others go on waiting. -/
theorem mem_rest_or_eq {request first : RequestId} {rest whole : List RequestId}
    (split : whole = first :: rest) (present : request ∈ whole) :
    request ∈ rest ∨ request = first := by
  rw [split, List.mem_cons] at present
  exact present.symm

/-- In a small step everyone who waits goes on waiting or gets an answer. -/
theorem SmallStep.keeps (step : SmallStep listening before after notices) :
    Keeps listening [] before after notices := by
  cases step with
  | fail drained closed => exact failWaiting_keeps before
  | @enter item rest first room hears =>
      refine .of_waiting (fun _ => rfl) fun purpose request _ present => ?_
      cases purpose with
      | push =>
          refine (mem_rest_or_eq (congrArg (List.map Item.push) first) present).imp_right ?_
          exact List.mem_singleton.mpr
      | _ => exact .inl present
  | @passPush item rest first deaf =>
      refine .of_waiting (fun _ => rfl) fun purpose request hears present => .inl ?_
      cases purpose with
      | push =>
          refine (mem_rest_or_eq (congrArg (List.map Item.push) first) present).resolve_right ?_
          rintro rfl
          exact Bool.false_ne_true (deaf.symm.trans hears)
      | _ => exact present
  | wake occupied =>
      refine .of_waiting (fun _ => rfl) fun purpose request hears present => ?_
      cases purpose with
      | wait => exact .inr (mem_answered_answerAll .ready hears present)
      | _ => exact .inl present
  | @deliver oldest rest taker others buffer first hears =>
      refine .of_waiting (fun _ => rfl) fun purpose request _ present => ?_
      cases purpose with
      | take => exact (mem_rest_or_eq first present).imp_right List.mem_singleton.mpr
      | _ => exact .inl present
  | @passTaker taker others first deaf =>
      refine .of_waiting (fun _ => rfl) fun purpose request hears present => .inl ?_
      cases purpose with
      | take =>
          refine (mem_rest_or_eq first present).resolve_right ?_
          rintro rfl
          exact Bool.false_ne_true (deaf.symm.trans hears)
      | _ => exact present

/-- So it is in any number of small steps. -/
theorem Course.keeps (course : Course listening before after notices) :
    Keeps listening [] before after notices := by
  induction course with
  | done actor => exact .refl actor
  | step first rest ih => exact first.keeps.before_events ih

/-! ## Events -/

variable {middle : Actor α}

/-- Where those who wait are not touched, it is enough to answer the push that comes in. -/
theorem push_keeps {actor after : Actor α} {item : Item α} {notices : List (Notice α)}
    (waiting : ∀ purpose, after.waiting purpose = actor.waiting purpose)
    (told : listening item.push = true → item.push ∈ answered notices) (present : Bool) :
    Keeps listening [.push item present] actor after notices := by
  intro purpose request hears asking
  rw [waiting]
  refine asking.imp_right fun arrived => ?_
  cases purpose with
  | push =>
      have same : request = item.push := List.mem_singleton.mp arrived
      exact same ▸ told (same ▸ hears)
  | _ => cases arrived

/-- A push that is let in is answered or waits. -/
theorem Entry.keeps {actor : Actor α} {item : Item α}
    (entry : Entry listening actor item middle notices) (present : Bool) :
    Keeps listening [.push item present] actor middle notices := by
  cases entry with
  | stays room hears =>
      exact push_keeps (fun purpose => by cases purpose <;> rfl)
        (fun _ => List.mem_singleton.mpr rfl) present
  | replaces dropping whole hears =>
      exact push_keeps (fun purpose => by cases purpose <;> rfl)
        (fun _ => List.mem_singleton.mpr rfl) present
  | undone deaf =>
      refine push_keeps (fun purpose => by cases purpose <;> rfl) (fun heard => ?_) present
      exact absurd (deaf.symm.trans heard) Bool.false_ne_true
  | waits blocking isOpen =>
      intro purpose request _ asking
      cases purpose with
      | push =>
          refine .inl ?_
          simp only [waiting, List.map_append, List.mem_append] at asking ⊢
          exact asking
      | _ => exact asking.imp_right fun arrived => absurd arrived List.not_mem_nil
  | lost dropping =>
      exact push_keeps (fun purpose => by cases purpose <;> rfl)
        (fun hears => mem_answered_answer .accepted hears) present

/-- Whoever is refused gets an answer. -/
theorem refused_keeps (actor : Actor α) (event : Event α) :
    Keeps listening [event] actor actor (afterEnd listening event) := by
  intro purpose request hears asking
  refine asking.imp_right fun arrived => ?_
  obtain ⟨other, same, asks⟩ := List.mem_filterMap.mp arrived
  rw [List.mem_singleton.mp same] at asks
  rw [afterEnd_eq, Event.request?_of_asking? asks]
  exact mem_answered_answerAll .notRunning hears (List.mem_singleton.mpr rfl)

/-- A take gets an answer or waits. -/
theorem onTake_keeps (actor : Actor α) (request : RequestId) (present : Bool) :
    Keeps listening [.take request present] actor (actor.onTake listening request).1
      (actor.onTake listening request).2 := by
  have arrived : Keeps listening [.take request present] actor
      { actor with takers := actor.takers ++ [request] } [] := by
    intro purpose other _ asking
    refine .inl ?_
    cases purpose with
    | take => exact List.mem_append.mpr asking
    | _ => exact asking.resolve_right List.not_mem_nil
  exact arrived.after_events (settle_course listening _).keeps

/-- A request that is answered at once does not have to wait. -/
theorem told_keeps (actor : Actor α) (request : RequestId) (reply : Answer α) :
    Keeps listening [.wait request] actor actor (answer listening request reply) := by
  intro purpose other hears asking
  refine asking.imp_right fun arrived => ?_
  cases purpose with
  | wait =>
      have same : other = request := List.mem_singleton.mp arrived
      exact same ▸ mem_answered_answer reply (same ▸ hears)
  | _ => cases arrived

/-- Blocked pushes fail, whatever else becomes of the actor. -/
theorem failBlocked_keeps {actor after : Actor α} {events : List (Event α)}
    (none : ∀ purpose, events.filterMap (Event.asking? purpose) = [])
    (takers : after.takers = actor.takers) (waiters : after.waiters = actor.waiters) :
    Keeps listening events actor after
      (answerAll listening (actor.blocked.map Item.push) .notRunning) := by
  refine .of_waiting none fun purpose request hears present => ?_
  cases purpose with
  | push => exact .inr (mem_answered_answerAll .notRunning hears present)
  | take =>
      left
      rw [waiting, takers]
      exact present
  | wait =>
      left
      rw [waiting, waiters]
      exact present
  | token => cases present

/-- Whoever waits when the buffer is discarded gets an answer. -/
theorem discard_keeps (actor : Actor α) :
    Keeps listening [.discard] actor (actor.discard listening).1 (actor.discard listening).2 := by
  have silent (purpose : Purpose) :
      [(.discard : Event α)].filterMap (Event.asking? purpose) = [] := by
    cases purpose <;> rfl
  have cleared : Keeps listening [] actor actor (actor.buffer.map .cleared) :=
    .of_waiting (fun _ => rfl) fun _ _ _ => .inl
  have failed : Keeps listening [.discard] actor
      { actor.withBuffer [] with blocked := [], ended := true }
      (answerAll listening (actor.blocked.map Item.push) .notRunning) :=
    failBlocked_keeps silent rfl rfl
  exact (cleared.before_events failed).after_events (failWaiting_keeps _)

/-- An event leaves nobody without an answer who does not go on waiting. -/
theorem Reaction.keeps {actor : Actor α} {event : Event α}
    (reaction : Reaction listening actor event after notices)
    (attentive : event.Attentive listening) : Keeps listening [event] actor after notices := by
  cases reaction with
  | refuses event stopped => exact refused_keeps _ event
  | missesPush item =>
      refine push_keeps (fun _ => rfl) (fun hears => ?_) false
      exact absurd (attentive hears) Bool.false_ne_true
  | missesTake request =>
      intro purpose other hears asking
      refine asking.imp_right fun arrived => ?_
      cases purpose with
      | take =>
          cases List.mem_singleton.mp arrived
          exact absurd (attentive hears) Bool.false_ne_true
      | _ => cases arrived
  | shutsOut item => exact refused_keeps _ (.push item true)
  | letsIn running entry => exact (entry.keeps true).after_events (settle_course listening _).keeps
  | takes request running => exact onTake_keeps actor request true
  | tells request word => exact told_keeps _ request _
  | waits request running empty isOpen =>
      intro purpose other _ asking
      refine .inl ?_
      cases purpose with
      | wait => exact List.mem_append.mpr asking
      | _ => exact asking.resolve_right List.not_mem_nil
  | staysClosed => exact .of_waiting (fun purpose => by cases purpose <;> rfl) fun _ _ _ => .inl
  | closes running =>
      have failed : Keeps listening [.close] actor { actor with closed := true, blocked := [] }
          (answerAll listening (actor.blocked.map Item.push) .notRunning) :=
        failBlocked_keeps (fun purpose => by cases purpose <;> rfl) rfl rfl
      exact failed.after_events (settle_course listening _).keeps
  | discards => exact discard_keeps actor

/-- Whatever the event, everyone who waits goes on waiting or gets an answer. -/
theorem handle_keeps (listening : RequestId → Bool) (actor : Actor α) (event : Event α)
    (attentive : event.Attentive listening) :
    Keeps listening [event] actor (actor.handle listening event).1
      (actor.handle listening event).2 :=
  (handle_reaction listening actor event).keeps attentive

/-- Whoever listens to an actor while it handles events goes on waiting or gets an answer. -/
theorem run_keeps (listening : RequestId → Bool) (actor : Actor α) (events : List (Event α))
    (attentive : ∀ event ∈ events, event.Attentive listening) :
    Keeps listening events actor (actor.run (events.map fun event => (listening, event))).1
      (actor.run (events.map fun event => (listening, event))).2 := by
  induction events generalizing actor with
  | nil => exact .refl actor
  | cons event rest ih =>
      have first := handle_keeps listening actor event (attentive event List.mem_cons_self)
      exact first.trans (ih _ fun other member => attentive other (List.mem_cons_of_mem _ member))

end Actor

end CommandScript.Mailbox
