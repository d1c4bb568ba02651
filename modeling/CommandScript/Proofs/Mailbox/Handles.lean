import CommandScript.Proofs.Mailbox.Closing
import CommandScript.Proofs.Mailbox.Waiting

/-!
# Handles and the control queue

The actor serves control requests before all others. When no writer is left it meets the end of the
control queue: it closes the input and does not look there any more. Until then no control request
escapes it, since only writers make them (`CommandScript.Mailbox.Tended`). When no reader is left
either, nothing reaches the actor any more, and nobody waits for it
(`CommandScript.Mailbox.run_deserted`).
-/

namespace CommandScript.Mailbox

variable {α : Type} {mailbox after : Mailbox α}

open History

/-! ## The control queue comes first -/

/-- What the actor finds in the control queue it is told before anything else. -/
theorem told_orders (mailbox : Mailbox α) :
    (mailbox.orders.map fun control => (mailbox.listening, control.event)) <+: mailbox.told := by
  have first : mailbox.orders.map Control.event <+: mailbox.queued := by
    unfold queued
    simp only [List.append_assoc]
    exact List.prefix_append ..
  have told := first.map fun event => (mailbox.listening, event)
  rw [List.map_map] at told
  exact told

/-- In a step the actor is told first what it then finds in the control queue. -/
theorem World.told_orders (world : World α) (operations : List (Operation α))
    (steps : List (List (Operation α))) :
    ∃ listening, ((world.operateAll operations).1.mailbox.orders.map
      fun control => (listening, control.event)) <+: world.told (operations :: steps) := by
  have orders := ((world.operateAll operations).1.mailbox.pollAll_unserved
    (world.operateAll operations).1.signals.fired?).orders
  have queues := Mailbox.told_orders ((world.operateAll operations).1.mailbox.pollAll
    (world.operateAll operations).1.signals.fired?).1
  rw [orders] at queues
  refine ⟨_, queues.trans ?_⟩
  rw [World.told, rounds, toldSettling, toldServing]
  simp only [List.append_assoc]
  exact List.prefix_append ..

/-- Where the control queue tells the actor something, a control request is the first it is told. -/
theorem exists_first {controls : List Control} (asked : controls ≠ [])
    {listening : RequestId → Bool} {told : Told α}
    (first : (controls.map fun control => (listening, control.event)) <+: told) :
    ∃ listening control others, told = (listening, Control.event control) :: others := by
  obtain ⟨control, more, rfl⟩ := List.exists_cons_of_ne_nil asked
  obtain ⟨others, rfl⟩ := first
  exact ⟨listening, control, _, rfl⟩

/-! ## No control request escapes the actor -/

/-- The actor looks for control requests until it has met the end of their queue. Then there are no
writers and no control requests, and the input is closed. -/
structure Tended (mailbox : Mailbox α) : Prop where
  rest : mailbox.actor.AtRest
  deserted : mailbox.attending = false →
    mailbox.handles.writers = 0 ∧ mailbox.control = [] ∧ mailbox.actor.Shut

namespace Tended

/-- A fresh mailbox has handles, and its actor looks for control requests. -/
theorem fresh (capacity : Nat) (policy : Policy) (slots : Nat) :
    (new capacity policy slots : Mailbox α).Tended :=
  ⟨Actor.new_atRest capacity policy, fun deserted => by cases deserted⟩

/-- Where somebody has asked for the end or could not any more, the input is closed or is going to
be. -/
theorem ending (tended : mailbox.Tended)
    (asked : mailbox.control ≠ [] ∨ mailbox.handles.writers = 0) :
    mailbox.actor.Shut ∨ mailbox.orders ≠ [] := by
  by_cases attending : mailbox.attending = true
  · right
    rw [orders, if_pos attending]
    rcases asked with asked | gone
    · exact List.append_ne_nil_of_left_ne_nil asked _
    · rw [if_pos gone]
      exact List.append_ne_nil_of_right_ne_nil _ (List.cons_ne_nil _ _)
  · exact .inl (tended.deserted (Bool.not_eq_true _ ▸ attending)).2.2

/-- A request to discard the mailbox is found. -/
theorem discard_mem_orders (tended : mailbox.Tended) (asked : .discard ∈ mailbox.control) :
    .discard ∈ mailbox.orders := by
  by_cases attending : mailbox.attending = true
  · rw [orders, if_pos attending]
    exact List.mem_append_left _ asked
  · rw [(tended.deserted (Bool.not_eq_true _ ▸ attending)).2.1] at asked
    cases asked

/-- A mailbox stays tended while its actor, its handles and its control queue stay. -/
theorem of_sameActor (tended : mailbox.Tended) (same : SameActor mailbox after) :
    after.Tended := by
  refine ⟨same.actor ▸ tended.rest, fun deserted => ?_⟩
  rw [same.handles, same.control, same.actor]
  exact tended.deserted (same.attending ▸ deserted)

/-- Whatever is in the queues, the actor closes the input when it has met the end. -/
theorem serveQueues (tended : mailbox.Tended) : mailbox.serveQueues.1.Tended := by
  refine ⟨Actor.run_atRest _ tended.rest mailbox.told, fun deserted => ?_⟩
  have gone : mailbox.handles.writers = 0 := by
    by_cases attending : mailbox.attending = true
    · have none : mailbox.attends = false := deserted
      rw [attends, attending, Bool.true_and, decide_eq_false_iff_not] at none
      exact Nat.eq_zero_of_not_pos none
    · exact (tended.deserted (Bool.not_eq_true _ ▸ attending)).1
  refine ⟨gone, rfl, (Actor.run_of_ending tended.rest ?_).1⟩
  exact (tended.ending (.inr gone)).imp_right fun asked => exists_first asked mailbox.told_orders

/-- A mailbox stays tended when it settles. -/
theorem settle (tended : mailbox.Tended) (fired? : TokenId → Option Failure) :
    (mailbox.settle fired?).1.Tended :=
  settleFor_induct (fun mailbox _ => mailbox.Tended) []
    (fun mailbox _ pending tended => tended.of_sameActor
      (mailbox.poll_unserved fired? pending).toSameActor)
    (fun _ _ tended => tended.serveQueues)
    (fun _ _ _ tended => tended.of_sameActor ⟨rfl, rfl, rfl, rfl⟩) tended mailbox.rounds

end Tended

/-! ## Operations and runs -/

/-- A writer can only come from another one. -/
theorem Operation.handlesAfter_writers (operation : Operation α) {handles : Handles}
    (gone : handles.writers = 0) : (operation.handlesAfter handles).writers = 0 := by
  cases operation with
  | changeHandles change =>
      rw [handlesAfter]
      split
      · rename_i allowed
        cases change with
        | cloneWriter => exact absurd gone (Nat.ne_of_gt (of_decide_eq_true allowed))
        | dropWriter => exact absurd gone (Nat.ne_of_gt (of_decide_eq_true allowed))
        | newReader => exact gone
        | dropReader => exact gone
      · exact gone
  | _ => exact gone

namespace Tended

/-- A mailbox stays tended through an operation: without a writer nobody sends orders. -/
theorem operate {world : World α} (tended : world.mailbox.Tended) (operation : Operation α) :
    (world.operate operation).1.mailbox.Tended := by
  have operated := world.operate_operated operation
  refine ⟨operated.actor ▸ tended.rest, fun deserted => ?_⟩
  obtain ⟨gone, unasked, shut⟩ := tended.deserted (operated.attending ▸ deserted)
  have nothing : operation.control? (world.operate operation).2 = none := by
    by_contra asked
    exact Nat.ne_of_gt (operated.writers asked) gone
  refine ⟨?_, ?_, operated.actor ▸ shut⟩
  · rw [operated.handles]
    exact operation.handlesAfter_writers gone
  · rw [operated.control, nothing, unasked]
    rfl

/-- So it is through any number of operations. -/
theorem operateAll {world : World α} (tended : world.mailbox.Tended)
    (operations : List (Operation α)) : (world.operateAll operations).1.mailbox.Tended := by
  induction operations generalizing world with
  | nil => exact tended
  | cons operation rest ih => exact ih (tended.operate operation)

/-- So it is through any run. -/
theorem run {world : World α} (tended : world.mailbox.Tended)
    (steps : List (List (Operation α))) : (world.run steps).1.mailbox.Tended := by
  induction steps generalizing world with
  | nil => exact tended
  | cons operations rest ih =>
      exact ih ((tended.operateAll operations).settle (world.operateAll operations).1.signals.fired?)

end Tended

/-- Whoever asks for the end is heard, unless no writer is left. -/
theorem World.operate_ending (world : World α) (operation : Operation α)
    (asked : (world.mailbox.control ≠ [] ∨ world.mailbox.handles.writers = 0) ∨
      operation = .close ∨ operation = .discard) :
    (world.operate operation).1.mailbox.control ≠ [] ∨
      (world.operate operation).1.mailbox.handles.writers = 0 := by
  have operated := world.operate_operated operation
  rw [operated.control, operated.handles]
  -- Only a writer may ask; without one the queue has come to its end anyway.
  by_cases gone : world.mailbox.handles.writers = 0
  · exact .inr (operation.handlesAfter_writers gone)
  · have writers : decide (0 < world.mailbox.handles.writers) = true :=
      decide_eq_true (Nat.pos_of_ne_zero gone)
    left
    rcases asked with earlier | rfl | rfl
    · exact List.append_ne_nil_of_left_ne_nil (earlier.resolve_right gone) _
    · have happens : world.operate .close = world.perform .close := if_pos writers
      rw [happens]
      exact List.append_ne_nil_of_right_ne_nil _ (List.cons_ne_nil _ _)
    · have happens : world.operate .discard = world.perform .discard := if_pos writers
      rw [happens]
      exact List.append_ne_nil_of_right_ne_nil _ (List.cons_ne_nil _ _)

/-- What ends the control queue before some of the operations, or in them, is there after all of
them. -/
theorem World.operateAll_ending (world : World α) (operations : List (Operation α))
    (asked : (world.mailbox.control ≠ [] ∨ world.mailbox.handles.writers = 0) ∨
      .close ∈ operations ∨ .discard ∈ operations) :
    (world.operateAll operations).1.mailbox.control ≠ [] ∨
      (world.operateAll operations).1.mailbox.handles.writers = 0 := by
  induction operations generalizing world with
  | nil => exact asked.resolve_right fun asks => asks.elim List.not_mem_nil List.not_mem_nil
  | cons operation rest ih =>
      have first := world.operate_ending operation
      refine ih (world.operate operation).1 ?_
      simp only [List.mem_cons] at asked
      rcases asked with earlier | (now | later) | (now | later)
      · exact .inl (first (.inl earlier))
      · exact .inl (first (.inr (.inl now.symm)))
      · exact .inr (.inl later)
      · exact .inl (first (.inr (.inr now.symm)))
      · exact .inr (.inr later)

/-- When the mailbox has been asked to be discarded, the actor is going to find that. -/
theorem World.operateAll_discard (world : World α) (operations : List (Operation α))
    (asked : .discard ∈ world.mailbox.control ∨
      (ofOperations operations (world.operateAll operations).2).givenUp = true) :
    .discard ∈ (world.operateAll operations).1.mailbox.control := by
  induction operations generalizing world with
  | nil => exact asked.resolve_right Bool.false_ne_true
  | cons operation rest ih =>
      have operated := world.operate_operated operation
      refine ih (world.operate operation).1 ?_
      rw [operated.control, List.mem_append]
      rcases asked with earlier | asks
      · exact .inl (.inl earlier)
      · rcases Bool.or_eq_true_iff.mp asks with now | later
        · have made : operation.control? (world.operate operation).2 = some .discard :=
            Operation.control?_of_isDiscard now
          rw [made]
          exact .inl (.inr List.mem_cons_self)
        · exact .inr later

/-! ## When no handle is left -/

/-- No handle is left, and nothing is on its way to the actor. -/
structure Deserted (mailbox : Mailbox α) : Prop where
  handles : mailbox.handles = ⟨0, 0⟩
  served : mailbox.Served

namespace Deserted

/-- The actor is told nothing more. -/
theorem told (deserted : mailbox.Deserted) : mailbox.told = [] := by
  obtain ⟨-, -, orders, pushes, -, takes, waits⟩ := deserted
  rw [Mailbox.told, queued, orders, pushes, takes, waits]
  rfl

/-- No look at a request brings anybody back. -/
theorem poll (deserted : mailbox.Deserted) (fired? : TokenId → Option Failure)
    (pending : Pending) : (mailbox.poll fired? pending).1.Deserted :=
  ⟨(mailbox.poll_unserved fired? pending).handles.trans deserted.handles,
    poll_served fired? pending deserted.served⟩

/-- There is nothing to serve. -/
theorem serveQueues (deserted : mailbox.Deserted) : mailbox.serveQueues.1.Deserted := by
  obtain ⟨handles, -, -, -, overflow, takes, waits⟩ := deserted
  refine ⟨handles, rfl, mailbox.serveQueues_orders, rfl, overflow, ?_, ?_⟩
  · exact congrArg ReadQueue.serve takes
  · exact congrArg ReadQueue.serve waits

/-- There is nobody to let in. -/
theorem letIn (deserted : mailbox.Deserted) : mailbox.letIn.Deserted := by
  obtain ⟨handles, control, orders, -, overflow, takes, waits⟩ := deserted
  refine ⟨handles, control, orders, ?_, ?_, takes, waits⟩
  · rw [Mailbox.letIn, overflow, List.take_nil]
  · rw [Mailbox.letIn, overflow, List.drop_nil]

/-- While a deserted mailbox comes to rest the actor is not told of anything. -/
theorem settle (deserted : mailbox.Deserted) (fired? : TokenId → Option Failure) :
    (mailbox.settle fired?).1.Deserted ∧ mailbox.toldSettling fired? mailbox.rounds = [] :=
  settleFor_induct (fun mailbox earlier => mailbox.Deserted ∧ earlier = []) []
    (fun _ _ pending kept => ⟨kept.1.poll fired? pending, kept.2⟩)
    (fun _ _ kept => ⟨kept.1.serveQueues, by rw [kept.1.told, kept.2]; rfl⟩)
    (fun _ _ _ kept => ⟨kept.1.letIn, kept.2⟩) ⟨deserted, rfl⟩ mailbox.rounds

/-- Without a handle there is nothing that a client could send to the actor. -/
theorem operate {world : World α} (deserted : world.mailbox.Deserted) (operation : Operation α) :
    (world.operate operation).1.mailbox.Deserted := by
  obtain ⟨handles, served⟩ := deserted
  unfold World.operate
  rw [handles]
  cases operation with
  | awaitToken token =>
      have registered : Deserted { world.mailbox with
          nextRequest := world.mailbox.nextRequest + 1
          pending := world.mailbox.pending ++ [⟨world.mailbox.nextRequest, some token⟩] } :=
        ⟨handles, served.control, served.orders, served.pushes, served.overflow, served.takes,
          served.waits⟩
      exact registered.poll world.signals.fired? ⟨world.mailbox.nextRequest, some token⟩
  | abandon request =>
      exact ⟨handles, served.control, served.orders, served.pushes, served.overflow,
        congrArg (ReadQueue.leave · request) served.takes,
        congrArg (ReadQueue.leave · request) served.waits⟩
  | changeHandles change => cases change <;> exact ⟨handles, served⟩
  | _ => exact ⟨handles, served⟩

/-- No operations bring anybody back. -/
theorem operateAll {world : World α} (deserted : world.mailbox.Deserted)
    (operations : List (Operation α)) : (world.operateAll operations).1.mailbox.Deserted := by
  induction operations generalizing world with
  | nil => exact deserted
  | cons operation rest ih => exact ih (deserted.operate operation)

/-- The actor is told nothing in any run. -/
theorem told_run {world : World α} (deserted : world.mailbox.Deserted)
    (steps : List (List (Operation α))) : world.told steps = [] := by
  induction steps generalizing world with
  | nil => rfl
  | cons operations rest ih =>
      obtain ⟨settled, silent⟩ := (deserted.operateAll operations).settle
        (world.operateAll operations).1.signals.fired?
      rw [World.told, silent, ih settled]
      rfl

end Deserted

/-- When the last handle is gone the actor has closed the input and nobody waits for it, and it is
not told of anything any more, whatever clients still do with their tokens and requests. -/
theorem run_deserted (capacity : Nat) (policy : Policy) (slots : Nat)
    (front back : List (List (Operation α))) :
    let early := ((World.start capacity policy slots).run front).1
    early.mailbox.handles = ⟨0, 0⟩ →
      early.mailbox.attending = false ∧ early.mailbox.actor.held = [] ∧
        early.told back = [] ∧ (early.run back).1.mailbox.actor = early.mailbox.actor := by
  intro early gone
  have quiet := World.quiet_run capacity policy slots front
  have start : (World.start capacity policy slots : World α).mailbox.Tended :=
    Tended.fresh capacity policy slots
  have tended := start.run front
  have unattended : early.mailbox.attending = false := by
    rw [attending_of_orders quiet.served.orders, attends, gone]
    exact Bool.and_false _
  have told := Deserted.told_run ⟨gone, quiet.served⟩ back
  have ran := early.run_told back
  rw [told] at ran
  exact ⟨unattended, tended.rest.held_of_shut (tended.deserted unattended).2.2, told,
    (congrArg Prod.fst ran).symm⟩

end CommandScript.Mailbox
