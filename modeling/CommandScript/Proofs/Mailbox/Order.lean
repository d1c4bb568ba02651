import CommandScript.Proofs.Mailbox.History
import CommandScript.Proofs.Mailbox.Rest

/-!
# An actor keeps the order of what it gets

Items leave an actor in the order in which they came, and so do the takes that get them: what has
been handed over, what is buffered and what is blocked is, in this order, a sublist of what the
actor had and what has arrived (`CommandScript.Mailbox.Actor.run_inOrder`). An item that is lost to
overflow, or whose push is given up, leaves a gap and nothing more.
-/

namespace CommandScript.Mailbox

variable {α : Type}

/-- The take that an event brings to the actor. -/
def Event.taker? : Event α → Option RequestId
  | .take request _ => some request
  | _ => none

namespace Actor

/-- From one state of an actor to another everything keeps its order: items, takes, and the
acknowledgements of pushes. -/
structure InOrder (events : List (Event α)) (before after : Actor α) (notices : List (Notice α)) :
    Prop where
  items : ((notices.filterMap Notice.handed?).map Prod.snd ++ after.buffer ++ after.blocked).Sublist
    (before.buffer ++ before.blocked ++ events.filterMap Event.item?)
  takers : ((notices.filterMap Notice.handed?).map Prod.fst ++ after.takers).Sublist
    (before.takers ++ events.filterMap Event.taker?)
  accepted : (notices.filterMap Notice.accepted? ++ after.blocked.map Item.push).Sublist
    (before.blocked.map Item.push ++ (events.filterMap Event.item?).map Item.push)

namespace InOrder

variable {events first second : List (Event α)} {before middle after : Actor α}
  {notices told more : List (Notice α)}

theorem trans (front : InOrder first before middle told) (back : InOrder second middle after more) :
    InOrder (first ++ second) before after (told ++ more) where
  items := by
    have early := front.items.append_right (second.filterMap Event.item?)
    have late := back.items.append_left ((told.filterMap Notice.handed?).map Prod.snd)
    simp only [List.filterMap_append, List.map_append, List.append_assoc] at early late ⊢
    exact late.trans early
  takers := by
    have early := front.takers.append_right (second.filterMap Event.taker?)
    have late := back.takers.append_left ((told.filterMap Notice.handed?).map Prod.fst)
    simp only [List.filterMap_append, List.map_append, List.append_assoc] at early late ⊢
    exact late.trans early
  accepted := by
    have early := front.accepted.append_right ((second.filterMap Event.item?).map Item.push)
    have late := back.accepted.append_left (told.filterMap Notice.accepted?)
    simp only [List.filterMap_append, List.map_append, List.append_assoc] at early late ⊢
    exact late.trans early

/-- Order is kept before events come in. -/
theorem before_events (front : InOrder [] before middle told)
    (back : InOrder events middle after more) : InOrder events before after (told ++ more) :=
  front.trans back

/-- Order is kept after events have come in. -/
theorem after_events (front : InOrder events before middle told)
    (back : InOrder [] middle after more) : InOrder events before after (told ++ more) := by
  simpa only [List.append_nil] using front.trans back

/-- Where nothing is handed over or acknowledged, order is kept if what remains is in order. -/
theorem thinning (handed : notices.filterMap Notice.handed? = [])
    (accepted : notices.filterMap Notice.accepted? = [])
    (items : (after.buffer ++ after.blocked).Sublist
      (before.buffer ++ before.blocked ++ events.filterMap Event.item?))
    (takers : after.takers.Sublist (before.takers ++ events.filterMap Event.taker?))
    (blocked : after.blocked.Sublist (before.blocked ++ events.filterMap Event.item?)) :
    InOrder events before after notices where
  items := by
    rw [handed]
    exact items
  takers := by
    rw [handed]
    exact takers
  accepted := by
    rw [accepted, List.nil_append, ← List.map_append]
    exact blocked.map Item.push

/-- Order is kept by telling requests a word that moves no item. -/
theorem answering {requests : List RequestId} {reply : Answer α} {listening : RequestId → Bool}
    (passive : Answer.Passive reply) (buffer : after.buffer = before.buffer)
    (blocked : after.blocked.Sublist before.blocked) (takers : after.takers.Sublist before.takers) :
    InOrder events before after (answerAll listening requests reply) := by
  refine thinning ?_ ?_ ?_ ?_ ?_
  · apply filterMap_answerAll_eq_nil
    rcases passive with rfl | rfl <;> exact fun _ => rfl
  · apply filterMap_answerAll_eq_nil
    rcases passive with rfl | rfl <;> exact fun _ => rfl
  · rw [buffer]
    exact (blocked.append_left _).trans (List.sublist_append_left ..)
  · exact takers.trans (List.sublist_append_left ..)
  · exact blocked.trans (List.sublist_append_left ..)

/-- Where nothing is told and nothing is moved, order is kept whatever comes in. -/
theorem ignoring (events : List (Event α)) (actor : Actor α) : InOrder events actor actor [] :=
  thinning rfl rfl (List.sublist_append_left ..) (List.sublist_append_left ..)
    (List.sublist_append_left ..)

end InOrder

variable {listening : RequestId → Bool} {before after : Actor α} {notices : List (Notice α)}

/-- To refuse those who wait hands nothing over. -/
theorem failWaiting_inOrder (actor : Actor α) :
    InOrder [] actor (actor.failWaiting listening).1 (actor.failWaiting listening).2 := by
  have takers : InOrder [] actor { actor with takers := [] }
      (answerAll listening actor.takers .notRunning) :=
    .answering (.inr rfl) rfl (.refl _) (List.nil_sublist _)
  have waiters : InOrder [] { actor with takers := [] } { actor with takers := [], waiters := [] }
      (answerAll listening actor.waiters .notRunning) :=
    .answering (.inr rfl) rfl (.refl _) (.refl _)
  exact takers.after_events waiters

/-- Small steps keep items and takers in order. -/
theorem SmallStep.inOrder (step : SmallStep listening before after notices) :
    InOrder [] before after notices := by
  cases step with
  | @enter item rest first room hears =>
      refine ⟨?_, ?_, ?_⟩
      · simp [Notice.handed?, withBuffer, first]
      · simp [Notice.handed?, withBuffer]
      · simp [Notice.accepted?, first]
  | @passPush item rest first deaf =>
      have fewer : rest.Sublist before.blocked := first ▸ List.sublist_cons_self item rest
      refine .thinning rfl rfl ?_ ?_ ?_
      · rw [List.filterMap_nil, List.append_nil]
        exact fewer.append_left before.buffer
      · exact List.sublist_append_left ..
      · exact fewer.trans (List.sublist_append_left ..)
  | wake occupied => exact .answering (.inl rfl) rfl (.refl _) (.refl _)
  | @deliver oldest rest taker others buffer first hears =>
      refine ⟨?_, ?_, ?_⟩
      · simp [Notice.handed?, withBuffer, buffer]
      · simp [Notice.handed?, first]
      · simp [Notice.accepted?, withBuffer]
  | @passTaker taker others first deaf =>
      have fewer : others.Sublist before.takers := first ▸ List.sublist_cons_self taker others
      exact .thinning rfl rfl (List.sublist_append_left ..)
        (fewer.trans (List.sublist_append_left ..)) (List.sublist_append_left ..)
  | fail drained closed => exact failWaiting_inOrder before

theorem Course.inOrder (course : Course listening before after notices) :
    InOrder [] before after notices := by
  induction course with
  | done actor => exact .ignoring [] actor
  | step first rest ih => exact first.inOrder.before_events ih

/-! ## Events -/

variable {middle : Actor α}

/-- A push that is let in by an actor at rest leaves all in order, whoever has to make room. -/
theorem Entry.inOrder {actor : Actor α} {item : Item α}
    (entry : Entry listening actor item middle notices) (rest : actor.AtRest) (present : Bool) :
    InOrder [.push item present] actor middle notices := by
  cases entry with
  | stays room hears =>
      have unblocked := rest.blocked_of_room room
      have told : [Notice.answered item.push (Answer.accepted : Answer α)].filterMap
          Notice.accepted? = [item.push] := rfl
      refine ⟨?_, List.sublist_append_left .., ?_⟩
      · simp [Notice.handed?, Event.item?, withBuffer, unblocked]
      · simp [told, Event.item?, withBuffer, unblocked]
  | @replaces oldest evicted kept dropping whole hears =>
      have unblocked := rest.blocked_of_policy dropping
      have told : [Notice.evicted evicted item.push, .answered item.push .accepted].filterMap
          Notice.accepted? = [item.push] := rfl
      refine ⟨?_, List.sublist_append_left .., ?_⟩
      · simp only [withBuffer, countDrop, unblocked, List.append_nil]
        exact (sublist_of_split whole).append_right [item]
      · simp [told, Event.item?, withBuffer, countDrop, unblocked]
  | undone deaf =>
      exact .thinning rfl rfl (List.sublist_append_left ..) (List.sublist_append_left ..)
        (List.sublist_append_left ..)
  | waits blocking isOpen =>
      refine .thinning rfl rfl ?_ (List.sublist_append_left ..) (.refl _)
      rw [← List.append_assoc]
      exact .refl _
  | lost dropping =>
      have unblocked := rest.blocked_of_policy dropping
      have told : ((Notice.evicted item item.push :: answer listening item.push .accepted).filterMap
          (Notice.handed? (α := α))) = [] := by
        unfold answer
        split <;> rfl
      refine ⟨?_, ?_, ?_⟩
      · rw [told]
        exact List.sublist_append_left ..
      · rw [told]
        exact List.sublist_append_left ..
      · simp only [countDrop, unblocked]
        unfold answer
        split
        · exact .refl _
        · exact List.nil_sublist _

/-- An event that is refused hands nothing over. -/
theorem refused_inOrder (actor : Actor α) (event : Event α) :
    InOrder [event] actor actor (afterEnd listening event) := by
  rw [afterEnd_eq]
  exact .answering (.inr rfl) rfl (.refl _) (.refl _)

/-- A wait that is answered at once hands nothing over. -/
theorem told_inOrder (actor : Actor α) (request : RequestId) {reply : Answer α}
    (passive : Answer.Passive reply) :
    InOrder [.wait request] actor actor (answer listening request reply) := by
  rw [← answerAll_singleton]
  exact .answering passive rfl (.refl _) (.refl _)

/-- A take stands behind all others. -/
theorem onTake_inOrder (actor : Actor α) (request : RequestId) (present : Bool) :
    InOrder [.take request present] actor (actor.onTake listening request).1
      (actor.onTake listening request).2 := by
  have arrived : InOrder [.take request present] actor
      { actor with takers := actor.takers ++ [request] } [] :=
    .thinning rfl rfl (List.sublist_append_left ..) (.refl _) (List.sublist_append_left ..)
  exact arrived.after_events (settle_course listening _).inOrder

/-- What is discarded is not handed over. -/
theorem discard_inOrder (actor : Actor α) :
    InOrder [.discard] actor (actor.discard listening).1 (actor.discard listening).2 := by
  have untold {β : Type} (tell : Notice α → Option β)
      (silent : ∀ item, tell (.cleared item) = none) :
      (actor.buffer.map Notice.cleared).filterMap tell = [] := by
    rw [List.filterMap_map, List.filterMap_eq_nil_iff]
    exact fun item _ => silent item
  have cleared : InOrder [.discard] actor { actor.withBuffer [] with ended := true }
      (actor.buffer.map .cleared) :=
    .thinning (untold _ fun _ => rfl) (untold _ fun _ => rfl)
      (((List.nil_sublist _).append_right _).trans (List.sublist_append_left ..))
      (List.sublist_append_left ..) (List.sublist_append_left ..)
  have failed : InOrder [] { actor.withBuffer [] with ended := true }
      { actor.withBuffer [] with blocked := [], ended := true }
      (answerAll listening (actor.blocked.map Item.push) .notRunning) :=
    .answering (.inr rfl) rfl (List.nil_sublist _) (.refl _)
  exact (cleared.after_events failed).after_events (failWaiting_inOrder _)

/-- An event that an actor at rest handles leaves all in order. -/
theorem Reaction.inOrder {actor : Actor α} {event : Event α}
    (reaction : Reaction listening actor event after notices) (rest : actor.AtRest) :
    InOrder [event] actor after notices := by
  cases reaction with
  | refuses event stopped => exact refused_inOrder _ event
  | missesPush item => exact .ignoring _ _
  | missesTake request => exact .ignoring _ _
  | shutsOut item => exact refused_inOrder _ (.push item true)
  | letsIn running entry =>
      exact (entry.inOrder rest true).after_events (settle_course listening _).inOrder
  | takes request running => exact onTake_inOrder actor request true
  | tells request word => exact told_inOrder _ request word
  | waits request running empty isOpen =>
      exact .thinning rfl rfl (List.sublist_append_left ..) (List.sublist_append_left ..)
        (List.sublist_append_left ..)
  | staysClosed => exact .ignoring _ _
  | closes running =>
      have failed : InOrder [.close] actor { actor with closed := true, blocked := [] }
          (answerAll listening (actor.blocked.map Item.push) .notRunning) :=
        .answering (.inr rfl) rfl (List.nil_sublist _) (.refl _)
      exact failed.after_events (settle_course listening _).inOrder
  | discards => exact discard_inOrder actor

/-- Whatever the event, items and takers stay in order. -/
theorem handle_inOrder (listening : RequestId → Bool) (actor : Actor α) (rest : actor.AtRest)
    (event : Event α) :
    InOrder [event] actor (actor.handle listening event).1 (actor.handle listening event).2 :=
  (handle_reaction listening actor event).inOrder rest

/-- Whatever happens to an actor at rest, items and takes keep their order. -/
theorem run_inOrder (actor : Actor α) (rest : actor.AtRest)
    (events : List ((RequestId → Bool) × Event α)) :
    InOrder (events.map Prod.snd) actor (actor.run events).1 (actor.run events).2 := by
  induction events generalizing actor with
  | nil => exact .ignoring [] actor
  | cons event others ih =>
      obtain ⟨listening, event⟩ := event
      exact (handle_inOrder listening actor rest event).trans
        (ih _ (handle_atRest listening actor rest event))

end Actor

end CommandScript.Mailbox
