import CommandScript.Proofs.Mailbox.Erasure
import CommandScript.Proofs.Mailbox.Turns

/-!
# What overflow leaves

An actor that gets items and hands none over keeps as many of them as its capacity allows, and its
policy decides which: the first ones, the last ones, or all but those between. The others wait, or
are lost and counted. One push after the other leads from what the items before it have left to what
they leave with it (`CommandScript.Mailbox.Actor.Gathers.push`), so that any number of them is
described in one go (`CommandScript.Mailbox.Actor.run_gathers`).
-/

namespace CommandScript.Mailbox

variable {α β : Type}

open History

/-! ## What a policy makes of items that come in a row -/

namespace Policy

/-- The items that are kept, of those that have come. -/
def retained (policy : Policy) (capacity : Nat) (items : List β) : List β :=
  match policy with
  | .block => items.take capacity
  | .dropHead => items.drop (items.length - capacity)
  | .dropIncoming => items.take capacity
  | .dropTail =>
    if items.length ≤ capacity then items
    else items.take (capacity - 1) ++ items.getLast?.toList

/-- The items that wait for room. -/
def delayed (policy : Policy) (capacity : Nat) (items : List β) : List β :=
  match policy with
  | .block => items.drop capacity
  | _ => []

/-- The items that are lost, in the order in which they are. -/
def lost (policy : Policy) (capacity : Nat) (items : List β) : List β :=
  match policy with
  | .block => []
  | .dropHead => items.take (items.length - capacity)
  | .dropIncoming => items.drop capacity
  | .dropTail => (items.drop (capacity - 1)).take (items.length - capacity)

/-- The items whose pushes are acknowledged. -/
def admitted (policy : Policy) (capacity : Nat) (items : List β) : List β :=
  match policy with
  | .block => items.take capacity
  | _ => items

variable (policy : Policy)

/-- Only items that are pushed are delayed. -/
theorem delayed_subset (capacity : Nat) (items : List β) :
    policy.delayed capacity items ⊆ items := by
  cases policy with
  | block => exact (List.drop_sublist ..).subset
  | _ => exact List.nil_subset _

theorem admitted_subset (capacity : Nat) (items : List β) :
    policy.admitted capacity items ⊆ items := by
  cases policy with
  | block => exact (List.take_sublist ..).subset
  | _ => exact List.Subset.refl _

variable {capacity : Nat} {items : List β}

/-- As long as there is room every item is kept. -/
theorem retained_of_le (room : items.length ≤ capacity) :
    policy.retained capacity items = items := by
  cases policy with
  | block => exact List.take_of_length_le room
  | dropHead => rw [retained, Nat.sub_eq_zero_of_le room, List.drop_zero]
  | dropIncoming => exact List.take_of_length_le room
  | dropTail => exact if_pos room

/-- Where there is room for all items none is delayed. -/
theorem delayed_of_le (room : items.length ≤ capacity) : policy.delayed capacity items = [] := by
  cases policy with
  | block => exact List.drop_of_length_le room
  | _ => rfl

theorem lost_of_le (room : items.length ≤ capacity) : policy.lost capacity items = [] := by
  cases policy with
  | block => rfl
  | dropHead => rw [lost, Nat.sub_eq_zero_of_le room, List.take_zero]
  | dropIncoming => exact List.drop_of_length_le room
  | dropTail => rw [lost, Nat.sub_eq_zero_of_le room, List.take_zero]

/-- Where there is room for all items all are admitted. -/
theorem admitted_of_le (room : items.length ≤ capacity) :
    policy.admitted capacity items = items := by
  cases policy with
  | block => exact List.take_of_length_le room
  | _ => rfl

/-- A policy that does not let pushes wait acknowledges all of them. -/
theorem admitted_of_ne (dropping : policy ≠ .block) : policy.admitted capacity items = items := by
  cases policy with
  | block => exact absurd rfl dropping
  | _ => rfl

/-- Once the buffer is full, its last place is that of the newest item. -/
theorem retained_dropTail (positive : 0 < capacity) (full : capacity ≤ items.length) :
    Policy.dropTail.retained capacity items =
      items.take (capacity - 1) ++ items.getLast?.toList := by
  rcases Nat.lt_or_eq_of_le full with crowded | rfl
  · exact if_neg (Nat.not_le.mpr crowded)
  · have occupied : items ≠ [] := List.ne_nil_of_length_pos positive
    rw [Policy.dropTail.retained_of_le (Nat.le_refl _), ← List.dropLast_eq_take,
      List.getLast?_eq_some_getLast occupied]
    exact (List.dropLast_append_getLast occupied).symm

/-- Once the buffer is full, all items after its front but the newest one are lost. -/
theorem lost_dropTail (positive : 0 < capacity) :
    Policy.dropTail.lost capacity items = (items.drop (capacity - 1)).dropLast := by
  rw [List.dropLast_eq_take, List.length_drop, lost]
  congr 1
  omega

/-- The front of the buffer, the items that were lost after it, and the newest one. -/
theorem front_append_lost (positive : 0 < capacity) (full : capacity ≤ items.length) :
    items.take (capacity - 1) ++
      (Policy.dropTail.lost capacity items ++ items.getLast?.toList) = items := by
  have behind : items.drop (capacity - 1) ≠ [] := by
    rw [ne_eq, List.drop_eq_nil_iff]
    omega
  have occupied : items ≠ [] := fun empty => behind (by rw [empty, List.drop_nil])
  rw [lost_dropTail positive, List.getLast?_eq_some_getLast occupied, Option.toList_some,
    ← List.getLast_drop behind, List.dropLast_append_getLast behind, List.take_append_drop]

/-- A buffer is as full as the items that have come can make it. -/
theorem length_retained (positive : 0 < capacity) :
    (policy.retained capacity items).length = min capacity items.length := by
  rcases Nat.lt_or_ge capacity items.length with crowded | room
  · cases policy with
    | block => exact List.length_take
    | dropHead =>
        rw [retained, List.length_drop]
        omega
    | dropIncoming => exact List.length_take
    | dropTail =>
        have occupied : items ≠ [] := List.ne_nil_of_length_pos (Nat.zero_lt_of_lt crowded)
        rw [retained_dropTail positive (Nat.le_of_lt crowded),
          List.getLast?_eq_some_getLast occupied, List.length_append, List.length_take,
          Option.toList_some, List.length_singleton]
        omega
  · rw [policy.retained_of_le room, Nat.min_eq_right room]

/-- What is kept is in the order in which it came. -/
theorem retained_sublist (positive : 0 < capacity) :
    (policy.retained capacity items).Sublist items := by
  rcases Nat.lt_or_ge capacity items.length with crowded | room
  · cases policy with
    | block => exact List.take_sublist ..
    | dropHead => exact List.drop_sublist ..
    | dropIncoming => exact List.take_sublist ..
    | dropTail =>
        have full := Nat.le_of_lt crowded
        have whole := front_append_lost positive full
        rw [retained_dropTail positive full]
        conv_rhs => rw [← whole]
        exact (List.sublist_append_right ..).append_left _
  · rw [policy.retained_of_le room]

/-- What is lost is as much as there is no room for. -/
theorem length_lost (positive : 0 < capacity) :
    (policy.lost capacity items).length =
      if policy = .block then 0 else items.length - capacity := by
  cases policy with
  | block => rfl
  | dropHead => simp [lost]
  | dropIncoming => simp [lost]
  | dropTail =>
      simp only [lost, List.length_take, List.length_drop, reduceCtorEq, if_false]
      omega

/-- Everything that comes is kept, waits or is lost. -/
theorem perm_fates (positive : 0 < capacity) :
    (policy.retained capacity items ++ policy.delayed capacity items ++
      policy.lost capacity items).Perm items := by
  rcases Nat.lt_or_ge capacity items.length with crowded | room
  · cases policy with
    | block => simp [retained, delayed, lost]
    | dropHead =>
        have unblocked : Policy.dropHead.delayed capacity items = [] := rfl
        rw [unblocked, List.append_nil]
        exact List.perm_append_comm.trans (.of_eq (List.take_append_drop ..))
    | dropIncoming => simp [retained, delayed, lost]
    | dropTail =>
        have full := Nat.le_of_lt crowded
        have unblocked : Policy.dropTail.delayed capacity items = [] := rfl
        rw [unblocked, List.append_nil, retained_dropTail positive full, List.append_assoc]
        exact (List.perm_append_comm.append_left _).trans
          (.of_eq (front_append_lost positive full))
  · rw [policy.retained_of_le room, policy.delayed_of_le room, policy.lost_of_le room,
      List.append_nil, List.append_nil]

/-! ## One more item -/

variable (item : β)

/-- The oldest item makes room for a further one. -/
theorem retained_dropHead_snoc (positive : 0 < capacity) (full : capacity ≤ items.length) :
    ∃ oldest, Policy.dropHead.retained capacity items =
        oldest :: (Policy.dropHead.retained capacity items).tail ∧
      Policy.dropHead.retained capacity (items ++ [item]) =
        (Policy.dropHead.retained capacity items).tail ++ [item] ∧
      Policy.dropHead.lost capacity (items ++ [item]) =
        Policy.dropHead.lost capacity items ++ [oldest] := by
  have inside : items.length - capacity < items.length := by omega
  have next : (items ++ [item]).length - capacity = items.length - capacity + 1 := by
    rw [List.length_append, List.length_singleton]
    omega
  refine ⟨items[items.length - capacity], ?_, ?_, ?_⟩
  · rw [retained, List.drop_eq_getElem_cons inside, List.tail_cons]
  · rw [retained, retained, next, List.tail_drop, List.drop_append_of_le_length (by omega)]
  · rw [lost, lost, next, List.take_append_of_le_length (by omega),
      List.take_succ_eq_append_getElem inside]

/-- The newest item makes room for a further one. -/
theorem retained_dropTail_snoc (positive : 0 < capacity) (full : capacity ≤ items.length) :
    ∃ newest, Policy.dropTail.retained capacity items =
        (Policy.dropTail.retained capacity items).dropLast ++ [newest] ∧
      Policy.dropTail.retained capacity (items ++ [item]) =
        (Policy.dropTail.retained capacity items).dropLast ++ [item] ∧
      Policy.dropTail.lost capacity (items ++ [item]) =
        Policy.dropTail.lost capacity items ++ [newest] := by
  have occupied : items ≠ [] := List.ne_nil_of_length_pos (Nat.lt_of_lt_of_le positive full)
  have behind : items.drop (capacity - 1) ≠ [] := by
    rw [ne_eq, List.drop_eq_nil_iff]
    omega
  have fuller : capacity ≤ (items ++ [item]).length := by
    rw [List.length_append]
    exact Nat.le_add_right_of_le full
  have front : capacity - 1 ≤ items.length := by omega
  have kept := retained_dropTail positive full
  rw [List.getLast?_eq_some_getLast occupied, Option.toList_some] at kept
  refine ⟨items.getLast occupied, ?_, ?_, ?_⟩
  · rw [kept, List.dropLast_concat]
  · rw [kept, List.dropLast_concat, retained_dropTail positive fuller, List.getLast?_concat,
      Option.toList_some, List.take_append_of_le_length front]
  · rw [lost_dropTail positive, lost_dropTail positive, List.drop_append_of_le_length front,
      List.dropLast_concat, ← List.getLast_drop behind, List.dropLast_append_getLast behind]

/-- Once the buffer is full, one more push is delayed. -/
theorem delayed_snoc_of_le (full : capacity ≤ items.length) :
    Policy.block.delayed capacity (items ++ [item]) =
      Policy.block.delayed capacity items ++ [item] :=
  List.drop_append_of_le_length full

/-- Once the buffer is full, it keeps what it has. -/
theorem take_snoc_of_le (full : capacity ≤ items.length) :
    (items ++ [item]).take capacity = items.take capacity :=
  List.take_append_of_le_length full

end Policy

/-- Pushes of clients that are there and listen, one after the other. -/
def LivePushes (told : Told α) : Prop :=
  ∀ entry ∈ told, ∃ item, entry.2 = .push item true ∧ entry.1 item.push = true

namespace Actor

/-- The actor that has got items one after the other and has handed none over. -/
def gathered (capacity : Nat) (policy : Policy) (items : List (Item α)) : Actor α :=
  { (new capacity policy).withBuffer (policy.retained (atLeastOne capacity) items) with
    blocked := policy.delayed (atLeastOne capacity) items
    discarded := (policy.lost (atLeastOne capacity) items).length }

/-- Where nobody asks for an item and pushes are blocked only by a full buffer, nothing moves. -/
theorem settle_of_nobody (listening : RequestId → Bool) {actor : Actor α}
    (takers : actor.takers = []) (waiters : actor.waiters = [])
    (full : actor.blocked ≠ [] → ¬ actor.buffer.length < actor.capacity) :
    actor.settle listening = (actor, []) :=
  settle_idle listening full fun asked => absurd asked (not_or.mpr ⟨not_not.mpr takers,
    not_not.mpr waiters⟩)

/-- What an actor has come to that has got items and handed none over, and what it has told. -/
structure Gathers (capacity : Nat) (policy : Policy) (items : List (Item α)) (actor : Actor α)
    (notices : List (Notice α)) : Prop where
  state : actor = gathered capacity policy items
  answered : notices.filterMap Notice.answer? =
    (policy.admitted (atLeastOne capacity) items).map fun item => (item.push, .accepted)
  evicted : (notices.filterMap Notice.eviction?).map Prod.fst =
    policy.lost (atLeastOne capacity) items

variable {listening : RequestId → Bool} {capacity : Nat} {policy : Policy}
  {items : List (Item α)} {item : Item α}

/-- A push for which there is room is accepted. -/
theorem onPush_gathered_of_lt (room : items.length < atLeastOne capacity)
    (hears : listening item.push = true) :
    (gathered capacity policy items).onPush listening item =
      (gathered capacity policy (items ++ [item]), [.answered item.push .accepted]) := by
  have earlier := Nat.le_of_lt room
  have later : (items ++ [item]).length ≤ atLeastOne capacity := by
    rw [List.length_append]
    exact room
  have space : (gathered capacity policy items).buffer.length <
      (gathered capacity policy items).capacity := by
    change (policy.retained (atLeastOne capacity) items).length < atLeastOne capacity
    rw [policy.retained_of_le earlier]
    exact room
  have next : (gathered capacity policy items).withBuffer
      ((gathered capacity policy items).buffer ++ [item]) =
        gathered capacity policy (items ++ [item]) := by
    simp only [gathered, withBuffer, policy.retained_of_le earlier, policy.retained_of_le later,
      policy.delayed_of_le earlier, policy.delayed_of_le later, policy.lost_of_le earlier,
      policy.lost_of_le later]
  have still : (gathered capacity policy (items ++ [item])).blocked = [] :=
    policy.delayed_of_le later
  have isOpen : (gathered capacity policy items).closed = false := rfl
  have settled : (gathered capacity policy (items ++ [item])).settle listening = _ :=
    settle_of_nobody listening rfl rfl (absurd still)
  simp only [onPush, isOpen, space, accept_of_heard _ hears, next, settled, Bool.false_eq_true,
    if_false, if_true]
  rfl

/-- A push that waits for room is not answered. -/
theorem overflow_gathered_block (full : atLeastOne capacity ≤ items.length) :
    (gathered capacity .block items).overflow listening item =
      (gathered capacity .block (items ++ [item]), []) := by
  have kept : Policy.block.retained (atLeastOne capacity) (items ++ [item]) =
      Policy.block.retained (atLeastOne capacity) items := Policy.take_snoc_of_le item full
  have waits := Policy.delayed_snoc_of_le item full
  simp only [overflow, gathered, withBuffer, new, kept, waits, Policy.lost]

/-- Any other policy acknowledges the push and loses an item, of which it tells. -/
theorem overflow_gathered (dropping : policy ≠ .block)
    (full : atLeastOne capacity ≤ items.length) (hears : listening item.push = true) :
    ∃ evicted, policy.lost (atLeastOne capacity) (items ++ [item]) =
        policy.lost (atLeastOne capacity) items ++ [evicted] ∧
      (gathered capacity policy items).overflow listening item =
        (gathered capacity policy (items ++ [item]),
          [.evicted evicted item.push, .answered item.push .accepted]) := by
  have positive := atLeastOne_pos capacity
  cases policy with
  | block => exact absurd rfl dropping
  | dropHead =>
      obtain ⟨oldest, kept, next, lost⟩ := Policy.retained_dropHead_snoc item positive full
      refine ⟨oldest, lost, ?_⟩
      have split : splitAtEnd true (gathered capacity .dropHead items).buffer =
          some (oldest, (Policy.dropHead.retained (atLeastOne capacity) items).tail) := by
        change splitOldest (Policy.dropHead.retained (atLeastOne capacity) items) = _
        rw [kept]
        rfl
      have evicts : (gathered capacity .dropHead items).acceptEvicting listening item true = _ :=
        acceptEvicting_eq _ item split kept
      rw [if_pos hears] at evicts
      refine evicts.trans ?_
      simp only [gathered, withBuffer, countDrop, new, next, lost, List.length_append,
        List.length_singleton]
      rfl
  | dropIncoming =>
      have kept : Policy.dropIncoming.retained (atLeastOne capacity) (items ++ [item]) =
          Policy.dropIncoming.retained (atLeastOne capacity) items :=
        Policy.take_snoc_of_le item full
      have lost : Policy.dropIncoming.lost (atLeastOne capacity) (items ++ [item]) =
          Policy.dropIncoming.lost (atLeastOne capacity) items ++ [item] :=
        List.drop_append_of_le_length full
      refine ⟨item, lost, ?_⟩
      simp only [overflow, gathered, withBuffer, countDrop, new, kept, lost, List.length_append,
        List.length_singleton, answer, hears, if_true]
      rfl
  | dropTail =>
      obtain ⟨newest, kept, next, lost⟩ := Policy.retained_dropTail_snoc item positive full
      refine ⟨newest, lost, ?_⟩
      have split : splitAtEnd false (gathered capacity .dropTail items).buffer =
          some (newest, (Policy.dropTail.retained (atLeastOne capacity) items).dropLast) := by
        change splitNewest (Policy.dropTail.retained (atLeastOne capacity) items) = _
        rw [splitNewest, kept, List.getLast?_concat, List.dropLast_concat, Option.map_some]
      have evicts : (gathered capacity .dropTail items).acceptEvicting listening item false = _ :=
        acceptEvicting_eq _ item split kept
      rw [if_pos hears] at evicts
      refine evicts.trans ?_
      simp only [gathered, withBuffer, countDrop, new, next, lost, List.length_append,
        List.length_singleton]
      rfl

/-- The buffer gathers as many items as fit. -/
theorem length_buffer_gathered (capacity : Nat) (policy : Policy) (items : List (Item α)) :
    (gathered capacity policy items).buffer.length = min (atLeastOne capacity) items.length :=
  policy.length_retained (atLeastOne_pos capacity)

/-- A push for which there is no room goes as its policy says. -/
theorem onPush_gathered_of_le (full : atLeastOne capacity ≤ items.length)
    {notices : List (Notice α)}
    (overflowed : (gathered capacity policy items).overflow listening item =
      (gathered capacity policy (items ++ [item]), notices)) :
    (gathered capacity policy items).onPush listening item =
      (gathered capacity policy (items ++ [item]), notices) := by
  have crowded (more : List (Item α)) (all : atLeastOne capacity ≤ more.length) :
      ¬ (gathered capacity policy more).buffer.length < (gathered capacity policy more).capacity := by
    rw [length_buffer_gathered, Nat.min_eq_left all]
    exact Nat.lt_irrefl _
  have fuller : atLeastOne capacity ≤ (items ++ [item]).length := by
    rw [List.length_append]
    exact Nat.le_add_right_of_le full
  have isOpen : (gathered capacity policy items).closed = false := rfl
  have settled : (gathered capacity policy (items ++ [item])).settle listening = _ :=
    settle_of_nobody listening rfl rfl fun _ => crowded _ fuller
  simp only [onPush, isOpen, crowded items full, overflowed, settled, Bool.false_eq_true, if_false,
    List.append_nil]

/-- One more push leads to what the items so far and its own one lead to. -/
theorem Gathers.push {actor : Actor α} {notices : List (Notice α)}
    (gathers : Gathers capacity policy items actor notices)
    (hears : listening item.push = true) :
    Gathers capacity policy (items ++ [item]) (actor.handle listening (.push item true)).1
      (notices ++ (actor.handle listening (.push item true)).2) := by
  obtain ⟨rfl, answered, evicted⟩ := gathers
  have running : (gathered capacity policy items).ended = false := rfl
  have handled : (gathered capacity policy items).handle listening (.push item true) =
      (gathered capacity policy items).onPush listening item := by
    simp only [handle, running, Bool.false_eq_true, if_false, if_true]
  rw [handled]
  rcases Nat.lt_or_ge items.length (atLeastOne capacity) with room | full
  · have later : (items ++ [item]).length ≤ atLeastOne capacity := by
      rw [List.length_append]
      exact room
    rw [onPush_gathered_of_lt room hears]
    refine ⟨rfl, ?_, ?_⟩
    · rw [List.filterMap_append, answered, policy.admitted_of_le (Nat.le_of_lt room),
        policy.admitted_of_le later, List.map_append]
      rfl
    · rw [List.filterMap_append, List.map_append, evicted, policy.lost_of_le (Nat.le_of_lt room),
        policy.lost_of_le later]
      rfl
  · by_cases dropping : policy = .block
    · subst dropping
      rw [onPush_gathered_of_le full (overflow_gathered_block full), List.append_nil]
      refine ⟨rfl, ?_, evicted⟩
      rw [answered]
      exact congrArg (List.map _) (Policy.take_snoc_of_le item full).symm
    · obtain ⟨lost, more, overflowed⟩ := overflow_gathered dropping full hears
      rw [onPush_gathered_of_le full overflowed]
      refine ⟨rfl, ?_, ?_⟩
      · rw [List.filterMap_append, answered, policy.admitted_of_ne dropping,
          policy.admitted_of_ne dropping, List.map_append]
        rfl
      · rw [List.filterMap_append, List.map_append, evicted, more]
        rfl

/-- Whatever pushes come, the closed form goes on to hold. -/
theorem Gathers.run {actor : Actor α} {notices : List (Notice α)}
    (gathers : Gathers capacity policy items actor notices) {told : Told α}
    (pushes : LivePushes told) :
    Gathers capacity policy (items ++ itemsOf told) (actor.run told).1
      (notices ++ (actor.run told).2) := by
  induction told generalizing items actor notices with
  | nil => simpa only [itemsOf, List.map_nil, List.filterMap_nil, List.append_nil, run] using gathers
  | cons entry rest ih =>
      obtain ⟨listening, event⟩ := entry
      obtain ⟨item, same, hears⟩ := pushes _ List.mem_cons_self
      obtain rfl : event = .push item true := same
      have later := ih (gathers.push hears) fun other member =>
        pushes other (List.mem_cons_of_mem _ member)
      rw [List.append_assoc, List.append_assoc] at later
      exact later

/-- What a fresh actor comes to that gets items and hands none over. -/
theorem run_gathers (capacity : Nat) (policy : Policy) {told : Told α} (pushes : LivePushes told) :
    Gathers capacity policy (itemsOf told) ((new capacity policy).run told).1
      ((new capacity policy).run told).2 := by
  have empty : Gathers capacity policy [] (new capacity policy : Actor α) [] := by
    have none : ([] : List (Item α)).length ≤ atLeastOne capacity := Nat.zero_le _
    refine ⟨?_, by rw [policy.admitted_of_le none]; rfl, by rw [policy.lost_of_le none]; rfl⟩
    simp only [gathered, withBuffer, new, policy.retained_of_le none, policy.delayed_of_le none,
      policy.lost_of_le none, List.length_nil]
  simpa only [List.nil_append] using empty.run pushes

/-- What an actor is left with that has got items and handed none over, and what its clients have
been told. -/
structure Overflows (capacity : Nat) (policy : Policy) (items : List (Item α)) (actor : Actor α)
    (notices : List (Notice α)) : Prop where
  buffer : actor.buffer = policy.retained (atLeastOne capacity) items
  blocked : actor.blocked = policy.delayed (atLeastOne capacity) items
  /-- Items are counted as lost where there is no room, unless pushes wait for it. -/
  discarded : actor.discarded =
    if policy = .block then 0 else items.length - atLeastOne capacity
  depth : actor.depth = min (atLeastOne capacity) items.length
  /-- Clients are told of nothing but the acceptance of their pushes, in order. -/
  answered : notices.filterMap Notice.answer? =
    (policy.admitted (atLeastOne capacity) items).map fun item => (item.push, .accepted)
  evicted : (notices.filterMap Notice.eviction?).map Prod.fst =
    policy.lost (atLeastOne capacity) items
  /-- The buffer is in the order of the pushes. -/
  ordered : actor.buffer.Sublist items
  /-- No item is anywhere else, and none is doubled. -/
  fates : (actor.buffer ++ actor.blocked ++
    (notices.filterMap Notice.eviction?).map Prod.fst).Perm items
  isOpen : actor.closed = false
  running : actor.ended = false

/-- The closed form says what becomes of every push. -/
theorem Gathers.overflows {actor : Actor α} {notices : List (Notice α)}
    (gathers : Gathers capacity policy items actor notices) :
    Overflows capacity policy items actor notices := by
  obtain ⟨rfl, answered, evicted⟩ := gathers
  have positive := atLeastOne_pos capacity
  exact
    { buffer := rfl
      blocked := rfl
      discarded := policy.length_lost positive
      depth := policy.length_retained positive
      answered := answered
      evicted := evicted
      ordered := policy.retained_sublist positive
      fates := by
        rw [evicted]
        exact policy.perm_fates positive
      isOpen := rfl
      running := rfl }

end Actor

end CommandScript.Mailbox
