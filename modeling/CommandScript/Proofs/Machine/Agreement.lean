import CommandScript.Proofs.Machine.Sealing

/-!
# Machines that differ in the bindings of one scope

Two machines may be the same but for what one scope binds. From inside a sealed region without that
scope they look the same: every scope of the region is found alike, and so is every name. What is
done in the region is done to both alike.
-/

namespace CommandScript

namespace Machine

variable {Host V : Type} {secret : ScopeId}

/-! ## Scopes -/

namespace Scopes

/-- As many scopes, and the same ones but for one of them. -/
structure AgreeOff (secret : ScopeId) (first second : Scopes V) : Prop where
  made : second.next = first.next
  found : ∀ id, id ≠ secret → second.find? id = first.find? id

variable {first second : Scopes V}

/-- The same scope may be added on both sides. -/
theorem AgreeOff.add (agree : AgreeOff secret first second) (scope : Scope V) :
    AgreeOff secret (first.add scope) (second.add scope) := by
  refine ⟨by rw [next_add, next_add, agree.made], fun id apart => ?_⟩
  rw [find?_add, find?_add, agree.made, agree.found id apart]

/-- The same assignment may be made on both sides, in the secret scope as well. -/
theorem AgreeOff.assign (agree : AgreeOff secret first second) (id : ScopeId) (name : Symbol)
    (value : V) : AgreeOff secret (first.assign id name value) (second.assign id name value) := by
  refine ⟨by rw [next_assign, next_assign, agree.made], fun other apart => ?_⟩
  rw [find?_assign, find?_assign, agree.found other apart]
  by_cases same : other = id
  · rw [if_pos same, if_pos same, agree.found id (same ▸ apart)]
  · rw [if_neg same, if_neg same]

/-- Several assignments may be made on both sides. -/
theorem AgreeOff.foldl_assign (agree : AgreeOff secret first second) (id : ScopeId)
    (named : Bindings V) :
    AgreeOff secret
      (named.foldl (fun scopes binding => scopes.assign id binding.1 binding.2) first)
      (named.foldl (fun scopes binding => scopes.assign id binding.1 binding.2) second) := by
  induction named generalizing first second with
  | nil => exact agree
  | cons binding rest ih => exact ih (agree.assign id binding.1 binding.2)

section Apart

variable (agree : AgreeOff secret first second) {id : ScopeId} (apart : id ≠ secret)
include agree apart

/-- The same names are free in any other scope. -/
theorem AgreeOff.isFree_eq (name : Symbol) : second.isFree id name = first.isFree id name := by
  rw [isFree, isFree, bindings, bindings, agree.found id apart]

/-- A scope lies inside of a function on both sides or on neither. -/
theorem AgreeOff.insideFunction_eq : second.insideFunction id = first.insideFunction id := by
  rw [insideFunction, insideFunction, agree.found id apart]

/-- A block may be added on both sides. -/
theorem AgreeOff.addBlock : AgreeOff secret (first.addBlock id) (second.addBlock id) := by
  rw [Scopes.addBlock, Scopes.addBlock, agree.insideFunction_eq apart]
  exact agree.add _

end Apart

/-- A look-up that starts in a region without the scope does not get there by going up. -/
theorem AgreeOff.lookup_eq {first second : Scopes Value} (agree : AgreeOff secret first second)
    {region : Set Node} (closed : first.Closed region) (hidden : .scope secret ∉ region)
    {id : ScopeId} (inside : .scope id ∈ region) (name : Symbol) :
    second.lookup id name = first.lookup id name := by
  rw [lookup, lookup]
  generalize id + 1 = steps
  induction steps generalizing id with
  | zero => rfl
  | succ steps ih =>
      have apart : id ≠ secret := fun same => hidden (same ▸ inside)
      rw [lookupWithin, lookupWithin, agree.found id apart]
      cases found : first.find? id with
      | none => rfl
      | some scope =>
          dsimp only
          cases scope.bindings.find? name with
          | some value => rfl
          | none =>
              cases above : scope.parent with
              | none => rfl
              | some parent => exact ih (closed.parent inside found parent above)

end Scopes

/-! ## Machines -/

/-- The same machines but for the bindings of one scope. -/
def AgreesOff (secret : ScopeId) (first second : Machine Host) : Prop :=
  ∃ scopes, first.scopes.AgreeOff secret scopes ∧ second = { first with scopes := scopes }

/-- The scope of a further module has the same identifier on both machines. -/
theorem AgreesOff.addModule {first second : Machine Host} (agree : first.AgreesOff secret second)
    (apart : rootScope ≠ secret) (path : String) :
    (first.addModule path).AgreesOff secret (second.addModule path) := by
  obtain ⟨scopes, agree, rfl⟩ := agree
  refine ⟨scopes.addBlock rootScope, agree.addBlock apart, ?_⟩
  rw [Machine.addModule, Machine.addModule]
  dsimp only
  rw [agree.made]

/-- A push does the same to both machines, and has come as far on both. -/
theorem AgreesOff.push {first second : Machine Host} (agree : first.AgreesOff secret second)
    (id : MailboxId) (value : Value) (token : Option Mailbox.TokenId) :
    (first.push id value token).1.AgreesOff secret (second.push id value token).1 ∧
      (second.push id value token).2 = (first.push id value token).2 := by
  obtain ⟨scopes, agree, rfl⟩ := agree
  have same : first.SameMailboxes { first with scopes := scopes } := ⟨rfl, rfl⟩
  obtain ⟨mailboxes, only⟩ := onlyMailboxes_push first id value token
  rw [same.push, only]
  exact ⟨⟨scopes, agree, rfl⟩, rfl⟩

end Machine

end CommandScript
