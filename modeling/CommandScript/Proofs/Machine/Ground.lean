import CommandScript.Proofs.Machine.Requests
import CommandScript.Proofs.Machine.Soundness
import CommandScript.Proofs.Sequence.Canonical

/-!
# Machines that hold only evaluated data

An argument is ground if there is nothing in it to evaluate: no variable and no script, however
deeply it is nested. A value is ground if it is no script and, if it is a list, all its items are
ground. What is encoded from a ground value is ground again, so that lists of encoded values are.
-/

namespace CommandScript

open CommandScript.Source

/-! ## Ground arguments and values -/

/-- A symbol, a number, a text, or a list of such arguments. -/
inductive Source.Argument.IsGround : Argument → Prop where
  | symbol (symbol : Symbol) : IsGround (.symbol symbol)
  | number (value : Float) : IsGround (.number value)
  | text (text : String) : IsGround (.text text)
  | list {items : List Argument} (each : ∀ item ∈ items, IsGround item) : IsGround (.list items)

namespace Machine

/-- The sequence was made by the operations on lists, and all its items are ground. -/
def IsGroundList (items : Sequence Argument) : Prop :=
  items.IsMade ∧ ∀ item ∈ items.walk, item.IsGround

/-- The value is no script, and if it is a list, its items are ground. -/
def Value.IsGround : Value → Prop
  | .list items => IsGroundList items
  | .script _ => False
  | _ => True

/-- The value is a symbol, a number, a text or a list of ground items. -/
def Value.IsDatum : Value → Prop
  | .symbol _ => True
  | .number _ => True
  | .text _ => True
  | .list items => IsGroundList items
  | _ => False

/-- A list of ground items is ground. -/
theorem isGroundList_ofList {items : List Argument} (ground : ∀ item ∈ items, item.IsGround) :
    IsGroundList (Sequence.ofList items) := by
  constructor
  · exact Sequence.isMade_ofList items
  · rwa [Sequence.walk_ofList]

/-- A ground item may be pushed to a ground list. -/
theorem IsGroundList.push {items : Sequence Argument} {item : Argument}
    (ground : IsGroundList items) (last : item.IsGround) : IsGroundList (items.push item) := by
  obtain ⟨made, each⟩ := ground
  obtain ⟨held, rfl⟩ := Sequence.isMade_iff.mp made
  rw [Sequence.walk_ofList] at each
  rw [Sequence.push_ofList]
  apply isGroundList_ofList
  intro other member
  rcases List.mem_append.mp member with old | new
  · exact each other old
  · rw [List.mem_singleton.mp new]
    exact last

/-- A ground value is encoded as a ground argument. -/
theorem Value.IsGround.encode {value : Value} {arg : Argument} (ground : value.IsGround)
    (encoded : value.encode = .ok arg) : arg.IsGround := by
  cases value with
  | symbol symbol =>
      cases encoded
      exact .symbol symbol
  | number value =>
      cases encoded
      exact .number value
  | text text =>
      cases encoded
      exact .text text
  | list items =>
      cases encoded
      exact .list ground.2
  | script script => exact ground.elim
  | nothing | function | process | mailbox | module => cases encoded

/-! ## Machines -/

/-- All lists that scopes bind are ground, and no scope binds a script. A process that is given such
values yields such a value. -/
structure HoldsGround {Host : Type} (machine : Machine Host) : Prop where
  bound : machine.scopes.BindsOnly Value.IsGround
  yields : ∀ process ∈ machine.processes, ∀ (call : ProcessCall) (host : Host) (value : Value),
    (∀ arg ∈ call.args, arg.IsGround) → (process.run call host).1 = .ok value → value.IsGround

variable {Host : Type} {machine after : Machine Host}

/-- On a fresh machine nothing but the default channels is bound. -/
theorem holdsGround_new (settings : Settings) (loader : Option (Loader Host)) (host : Host) :
    (Machine.new settings loader host).HoldsGround where
  bound := by
    have none : (Scopes.empty : Scopes Value).BindsOnly Value.IsGround := by
      intro id scope found
      cases found
    have channel (id : MailboxId) : (Value.mailbox id).IsGround := trivial
    have out := (none.add Option.none false).assign rootScope Keyword.stdout (channel stdoutId)
    have err := out.assign rootScope Keyword.stderr (channel stderrId)
    exact (err.assign rootScope Keyword.stdin (channel stdinId)).add (some rootScope) false
  yields process member := by
    cases Array.not_mem_empty process member

/-- Good values may be assigned one after the other. -/
theorem Scopes.BindsOnly.foldl_assign {scopes : Scopes Value} {good : Value → Prop}
    (binds : scopes.BindsOnly good) (id : ScopeId) {named : Bindings Value}
    (fine : ∀ binding ∈ named, good binding.2) :
    (named.foldl (fun scopes binding => scopes.assign id binding.1 binding.2) scopes).BindsOnly
      good := by
  induction named generalizing scopes with
  | nil => exact binds
  | cons binding rest ih =>
      rw [List.forall_mem_cons] at fine
      exact ih (binds.assign id binding.1 fine.1) fine.2

namespace HoldsGround

variable (holds : machine.HoldsGround)
include holds

/-- The scopes may be replaced by others that bind ground values. -/
theorem rebind (bound : after.scopes.BindsOnly Value.IsGround)
    (processes : after.processes = machine.processes) : after.HoldsGround := by
  constructor
  · exact bound
  · rw [processes]
    exact holds.yields

/-- Whatever has the same scopes and processes holds ground data as well. -/
theorem keep (scopes : after.scopes = machine.scopes)
    (processes : after.processes = machine.processes) : after.HoldsGround := by
  apply holds.rebind _ processes
  rw [scopes]
  exact holds.bound

theorem onlyMailboxes (only : machine.OnlyMailboxes after) : after.HoldsGround := by
  obtain ⟨mailboxes, rfl⟩ := only
  exact holds.keep rfl rfl

theorem of_lookup {scope : ScopeId} {name : Symbol} {value : Value}
    (found : machine.scopes.lookup scope name = some value) : value.IsGround :=
  holds.bound.lookup found

/-- A process yields a ground value for ground arguments. -/
theorem of_process {id : ProcessId} {process : HostProcess Host} {values : List Value}
    {counts : Value.MailboxCounts} {host : Host} {value : Value}
    (found : machine.processes[id]? = some process) (ground : ∀ value ∈ values, value.IsGround)
    (yielded : (process.run ⟨values, counts⟩ host).1 = .ok value) : value.IsGround :=
  holds.yields process (Array.mem_of_getElem? found) _ _ value ground yielded

end HoldsGround

end Machine

end CommandScript
