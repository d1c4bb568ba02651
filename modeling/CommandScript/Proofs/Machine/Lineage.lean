import CommandScript.Proofs.Machine.Sealing

/-!
# Parent chains

A scope is never moved: what lies above it, and whether it lies inside a function, is settled when
it is made. So a parent chain stays as it is while further scopes are made. Above a scope outside of
functions there are only such scopes, up to the root. If scopes are made below scopes that exist,
whatever lies inside a function lies below exactly one scope that was made for a function body.
-/

namespace CommandScript.Machine

namespace Scopes

variable {V : Type} {scopes before middle after : Scopes V} {id parent above other : ScopeId}

/-! ## What is settled when a scope is made -/

/-- A scope that is added has its parent; the others keep theirs. -/
theorem parent?_add (scopes : Scopes V) (scope : Scope V) (id : ScopeId) :
    (scopes.add scope).parent? id =
      if id = scopes.next then scope.parent else scopes.parent? id := by
  rw [parent?, parent?, find?_add]
  split <;> rfl

/-- A scope that is added lies inside of a function if it says so. -/
theorem insideFunction_add (scopes : Scopes V) (scope : Scope V) (id : ScopeId) :
    (scopes.add scope).insideFunction id =
      if id = scopes.next then scope.insideFunction else scopes.insideFunction id := by
  rw [insideFunction, insideFunction, find?_add]
  split <;> rfl

/-- A block below a scope does not change whether the scope lies inside a function. -/
theorem insideFunction_addBlock_self (scopes : Scopes V) (parent : ScopeId) :
    (scopes.addBlock parent).insideFunction parent = scopes.insideFunction parent := by
  rw [addBlock, insideFunction_add]
  split <;> rfl

/-! A scope that is added gets the next number. -/

/-- A scope that is added takes up a number. -/
theorem next_lt_next_add (scopes : Scopes V) (scope : Scope V) :
    scopes.next < (scopes.add scope).next := by
  rw [next_add]
  exact Nat.lt_succ_self _

theorem parent?_next_add (scopes : Scopes V) (scope : Scope V) :
    (scopes.add scope).parent? scopes.next = scope.parent :=
  (parent?_add ..).trans (if_pos rfl)

theorem insideFunction_next_add (scopes : Scopes V) (scope : Scope V) :
    (scopes.add scope).insideFunction scopes.next = scope.insideFunction :=
  (insideFunction_add ..).trans (if_pos rfl)

/-- An assignment changes no parent. -/
@[simp]
theorem parent?_assign (scopes : Scopes V) (id other : ScopeId) (name : Symbol) (value : V) :
    (scopes.assign id name value).parent? other = scopes.parent? other := by
  rw [parent?, parent?, find?_assign]
  split
  · rename_i same
    rw [same]
    cases scopes.find? id <;> rfl
  · rfl

@[simp]
theorem insideFunction_assign (scopes : Scopes V) (id other : ScopeId) (name : Symbol) (value : V) :
    (scopes.assign id name value).insideFunction other = scopes.insideFunction other := by
  rw [insideFunction, insideFunction, find?_assign]
  split
  · rename_i same
    rw [same]
    cases scopes.find? id <;> rfl
  · rfl

/-- Only a scope that has been made has one above it. -/
theorem lt_next_of_parent? (step : scopes.parent? id = some parent) : id < scopes.next := by
  obtain ⟨scope, found, -⟩ := Option.bind_eq_some_iff.mp step
  exact lt_next_of_find? found

/-- Only a scope that has been made lies inside a function. -/
theorem lt_next_of_insideFunction (inside : scopes.insideFunction id = true) :
    id < scopes.next := by
  rw [insideFunction] at inside
  cases found : scopes.find? id with
  | none => simp [found] at inside
  | some scope => exact lt_next_of_find? found

/-- The scope has been made, and does not lie inside a function. -/
structure IsOutside (scopes : Scopes V) (id : ScopeId) : Prop where
  made : id < scopes.next
  outside : scopes.insideFunction id = false

/-- The scope was made for the body of a function: it lies inside a function, and the scope above it
does not. -/
structure IsBody (scopes : Scopes V) (id : ScopeId) : Prop where
  inside : scopes.insideFunction id = true
  below : ∃ parent, scopes.parent? id = some parent ∧ scopes.IsOutside parent

/-- A scope is on the parent chain of another: it is that scope itself or on the chain of the one
above it. -/
inductive Chain (scopes : Scopes V) : ScopeId → ScopeId → Prop where
  | here (id : ScopeId) : Chain scopes id id
  | up {id parent above : ScopeId} (step : scopes.parent? id = some parent)
    (rest : Chain scopes parent above) : Chain scopes id above

/-- Of two scopes on a chain one lies on the chain of the other. -/
theorem Chain.total (first : scopes.Chain id above) (second : scopes.Chain id other) :
    scopes.Chain above other ∨ scopes.Chain other above := by
  induction first with
  | here id => exact .inl second
  | up step rest ih =>
      cases second with
      | here => exact .inr (.up step rest)
      | up again higher =>
          cases step.symm.trans again
          exact ih higher

/-! ## Further scopes -/

/-- Scopes have been made or bound names, and those that there were are still where they were. -/
structure Extends (before after : Scopes V) : Prop where
  made : before.next ≤ after.next
  parent? : ∀ {id}, id < before.next → after.parent? id = before.parent? id
  insideFunction : ∀ {id}, id < before.next → after.insideFunction id = before.insideFunction id

theorem Extends.refl (scopes : Scopes V) : scopes.Extends scopes :=
  ⟨Nat.le_refl _, fun _ => rfl, fun _ => rfl⟩

theorem Extends.trans (first : before.Extends middle) (second : middle.Extends after) :
    before.Extends after where
  made := first.made.trans second.made
  parent? below := (second.parent? (below.trans_le first.made)).trans (first.parent? below)
  insideFunction below :=
    (second.insideFunction (below.trans_le first.made)).trans (first.insideFunction below)

/-- A new scope leaves the others as they are. -/
theorem extends_add (scopes : Scopes V) (scope : Scope V) : scopes.Extends (scopes.add scope) where
  made := (next_lt_next_add ..).le
  parent? below := by rw [parent?_add, if_neg (Nat.ne_of_lt below)]
  insideFunction below := by rw [insideFunction_add, if_neg (Nat.ne_of_lt below)]

theorem extends_assign (scopes : Scopes V) (id : ScopeId) (name : Symbol) (value : V) :
    scopes.Extends (scopes.assign id name value) :=
  ⟨(next_assign ..).ge, fun _ => parent?_assign .., fun _ => insideFunction_assign ..⟩

section Later

variable (later : before.Extends after)
include later

/-- A scope outside of functions stays there. -/
theorem IsOutside.extend (outside : before.IsOutside id) : after.IsOutside id :=
  ⟨outside.made.trans_le later.made,
    (later.insideFunction outside.made).trans outside.outside⟩

/-- A scope keeps its parent. -/
theorem parent?_extend (step : before.parent? id = some parent) : after.parent? id = some parent :=
  (later.parent? (lt_next_of_parent? step)).trans step

theorem IsBody.extend (body : before.IsBody id) : after.IsBody id := by
  obtain ⟨inside, parent, step, outside⟩ := body
  refine ⟨?_, parent, parent?_extend later step, outside.extend later⟩
  rw [later.insideFunction (lt_next_of_parent? step), inside]

/-- The scopes above a scope stay above it. -/
theorem Chain.extend (chain : before.Chain id above) : after.Chain id above := by
  induction chain with
  | here id => exact .here id
  | up step rest ih => exact .up (parent?_extend later step) ih

end Later

/-! ## Above what lies outside of functions -/

/-- The root is the only scope with nothing above it. It lies outside of functions, and whatever is
above a scope outside of functions does so too. -/
structure Grounded (scopes : Scopes V) : Prop where
  root : scopes.IsOutside rootScope
  top : scopes.parent? rootScope = none
  sole : ∀ {id}, id < scopes.next → scopes.parent? id = none → id = rootScope
  above : ∀ {id parent}, scopes.IsOutside id → scopes.parent? id = some parent →
    scopes.IsOutside parent

theorem Grounded.assign (grounded : scopes.Grounded) (id : ScopeId) (name : Symbol) (value : V) :
    (scopes.assign id name value).Grounded := by
  have same {other : ScopeId} :
      (scopes.assign id name value).IsOutside other ↔ scopes.IsOutside other := by
    constructor
    · exact fun outside => ⟨next_assign scopes id name value ▸ outside.made,
        (insideFunction_assign ..).symm.trans outside.outside⟩
    · exact fun outside => outside.extend (extends_assign ..)
  refine ⟨same.mpr grounded.root, ?_, ?_, ?_⟩
  · rw [parent?_assign]
    exact grounded.top
  · intro other made none
    rw [next_assign] at made
    rw [parent?_assign] at none
    exact grounded.sole made none
  · intro other parent outside step
    rw [parent?_assign] at step
    exact same.mpr (grounded.above (same.mp outside) step)

/-- A further scope does not lie outside of functions if the one above it does not. -/
theorem Grounded.add (grounded : scopes.Grounded) {function : Bool}
    (below : function = false → scopes.IsOutside parent) :
    (scopes.add ⟨some parent, [], function⟩).Grounded := by
  have further := extends_add scopes ⟨some parent, [], function⟩
  refine ⟨grounded.root.extend further, ?_, ?_, ?_⟩
  · exact (further.parent? grounded.root.made).trans grounded.top
  · intro id made none
    rw [parent?_add] at none
    split at none
    · cases none
    · rename_i old
      rw [next_add] at made
      exact grounded.sole (Nat.lt_of_le_of_ne (Nat.le_of_lt_succ made) old) none
  · intro id above outside step
    rw [parent?_add] at step
    have inside := outside.outside
    rw [insideFunction_add] at inside
    split at step
    · rename_i new
      cases step
      rw [if_pos new] at inside
      exact (below inside).extend further
    · rename_i old
      rw [if_neg old] at inside
      exact (grounded.above ⟨lt_next_of_parent? step, inside⟩ step).extend further

/-- A block below a scope that is made leaves the scopes grounded. -/
theorem Grounded.addBlock (grounded : scopes.Grounded) (made : parent < scopes.next) :
    (scopes.addBlock parent).Grounded :=
  grounded.add fun outside => ⟨made, outside⟩

/-- The scope of a body leaves the scopes grounded. -/
theorem Grounded.addFunction (grounded : scopes.Grounded) (parent : ScopeId) :
    (scopes.addFunction parent).Grounded :=
  grounded.add nofun

/-- Above a scope outside of functions all are. -/
theorem Grounded.outside_of_chain (grounded : scopes.Grounded) (chain : scopes.Chain id above)
    (outside : scopes.IsOutside id) : scopes.IsOutside above := by
  induction chain with
  | here id => exact outside
  | up step rest ih => exact ih (grounded.above outside step)

/-! ## Bodies of functions -/

/-- Nothing above a scope that was made for a body was made for one. -/
theorem Grounded.eq_of_chain (grounded : scopes.Grounded) (chain : scopes.Chain id above)
    (body : scopes.IsBody id) (higher : scopes.IsBody above) : id = above := by
  cases chain with
  | here => rfl
  | up step rest =>
      obtain ⟨parent, directly, outside⟩ := body.below
      cases directly.symm.trans step
      have apart := (grounded.outside_of_chain rest outside).outside
      rw [higher.inside] at apart
      cases apart

/-- At most one scope on a chain was made for a body. -/
theorem Grounded.body_unique (grounded : scopes.Grounded) (first : scopes.Chain id above)
    (second : scopes.Chain id other) (body : scopes.IsBody above) (also : scopes.IsBody other) :
    above = other := by
  rcases first.total second with chain | chain
  · exact grounded.eq_of_chain chain body also
  · exact (grounded.eq_of_chain chain also body).symm

/-- What lies below a scope that was made for a body lies inside a function. -/
theorem Grounded.inside_of_chain (grounded : scopes.Grounded) (chain : scopes.Chain id above)
    (body : scopes.IsBody above) : scopes.insideFunction id = true := by
  cases inside : scopes.insideFunction id with
  | true => rfl
  | false =>
      have made : id < scopes.next := by
        cases chain with
        | here => exact lt_next_of_insideFunction body.inside
        | up step rest => exact lt_next_of_parent? step
      have outside := (grounded.outside_of_chain chain ⟨made, inside⟩).outside
      rw [body.inside] at outside
      cases outside

/-- A block is never taken for the body of a function. -/
theorem not_isBody_addBlock (made : parent < scopes.next) :
    ¬(scopes.addBlock parent).IsBody scopes.next := by
  rintro ⟨inside, above, step, outside⟩
  rw [addBlock, parent?_next_add] at step
  cases step
  have apart := outside.outside
  rw [addBlock, insideFunction_add, if_neg (Nat.ne_of_lt made)] at apart
  rw [addBlock, insideFunction_next_add] at inside
  exact Bool.false_ne_true (apart.symm.trans inside)

/-- The scope of a body is taken for one if it is made below a scope outside of functions. -/
theorem isBody_addFunction (outside : scopes.IsOutside parent) :
    (scopes.addFunction parent).IsBody scopes.next :=
  ⟨insideFunction_next_add .., parent, parent?_next_add .., outside.extend (extends_add ..)⟩

/-! ## Where scopes are made below scopes that exist -/

/-- The scope above another was made before it. -/
def Ordered (scopes : Scopes V) : Prop :=
  ∀ id parent, scopes.parent? id = some parent → parent < id

theorem Ordered.assign (ordered : scopes.Ordered) (id : ScopeId) (name : Symbol) (value : V) :
    (scopes.assign id name value).Ordered := by
  intro other parent step
  rw [parent?_assign] at step
  exact ordered other parent step

/-- A scope below one that is made leaves the scopes in order. -/
theorem Ordered.add (ordered : scopes.Ordered) (made : parent < scopes.next) (function : Bool) :
    (scopes.add ⟨some parent, [], function⟩).Ordered := by
  intro id above step
  rw [parent?_add] at step
  split at step
  · rename_i new
    cases step
    exact new ▸ made
  · exact ordered id above step

/-- A look-up takes no more steps than the identifier of the scope it starts from. -/
theorem Ordered.lookupWithin_eq (ordered : scopes.Ordered) (name : Symbol) {id : ScopeId}
    {steps others : Nat} (enough : id < steps) (more : id < others) :
    scopes.lookupWithin name steps id = scopes.lookupWithin name others id := by
  induction id using Nat.strong_induction_on generalizing steps others with
  | _ id ih =>
      obtain ⟨steps, rfl⟩ := Nat.exists_eq_add_one_of_ne_zero (Nat.ne_zero_of_lt enough)
      obtain ⟨others, rfl⟩ := Nat.exists_eq_add_one_of_ne_zero (Nat.ne_zero_of_lt more)
      rw [lookupWithin, lookupWithin]
      cases found : scopes.find? id with
      | none => rfl
      | some scope =>
          dsimp only
          cases scope.bindings.find? name with
          | some value => rfl
          | none =>
              cases above : scope.parent with
              | none => rfl
              | some parent =>
                  have lower : parent < id := by
                    refine ordered id parent ?_
                    rw [parent?, found, Option.bind_some, above]
                  exact ih parent lower (Nat.lt_of_lt_of_le lower (Nat.le_of_lt_succ enough))
                    (Nat.lt_of_lt_of_le lower (Nat.le_of_lt_succ more))

/-- A further scope does not show in look-ups that start from others. -/
theorem Ordered.lookupWithin_add (ordered : scopes.Ordered) (scope : Scope V) (name : Symbol)
    {id : ScopeId} (made : id < scopes.next) (steps : Nat) :
    (scopes.add scope).lookupWithin name steps id = scopes.lookupWithin name steps id := by
  induction steps generalizing id with
  | zero => rfl
  | succ steps ih =>
      rw [lookupWithin, lookupWithin, find?_add_of_lt _ _ made]
      cases found : scopes.find? id with
      | none => rfl
      | some scope =>
          dsimp only
          cases scope.bindings.find? name with
          | some value => rfl
          | none =>
              cases above : scope.parent with
              | none => rfl
              | some parent =>
                  refine ih (Nat.lt_trans (ordered id parent ?_) made)
                  rw [parent?, found, Option.bind_some, above]

/-- From a new block the same names are found as from the scope that it is made in. -/
theorem Ordered.lookup_addBlock (ordered : scopes.Ordered) (made : parent < scopes.next)
    (name : Symbol) :
    (scopes.addBlock parent).lookup scopes.next name = scopes.lookup parent name := by
  rw [lookup, lookupWithin, addBlock, find?_add_next]
  dsimp only
  rw [Bindings.find?_nil]
  dsimp only
  rw [ordered.lookupWithin_add _ name made]
  exact ordered.lookupWithin_eq name made (Nat.lt_succ_self parent)

/-- Every chain ends at the root. -/
theorem Grounded.chain_root (grounded : scopes.Grounded) (ordered : scopes.Ordered)
    (made : id < scopes.next) : scopes.Chain id rootScope := by
  induction id using Nat.strong_induction_on with
  | _ id ih =>
      cases step : scopes.parent? id with
      | none =>
          rw [grounded.sole made step]
          exact .here rootScope
      | some parent =>
          have lower := ordered id parent step
          exact .up step (ih parent lower (lower.trans made))

/-- Whatever lies inside a function lies below a scope that was made for a body: go up to the last
scope that lies inside. -/
theorem Grounded.exists_body (grounded : scopes.Grounded) (ordered : scopes.Ordered)
    (inside : scopes.insideFunction id = true) :
    ∃ above, scopes.Chain id above ∧ scopes.IsBody above := by
  induction id using Nat.strong_induction_on with
  | _ id ih =>
      have made := lt_next_of_insideFunction inside
      cases step : scopes.parent? id with
      | none =>
          have outside := grounded.root.outside
          rw [← grounded.sole made step, inside] at outside
          cases outside
      | some parent =>
          have lower := ordered id parent step
          cases higher : scopes.insideFunction parent with
          | true =>
              obtain ⟨above, chain, body⟩ := ih parent lower higher
              exact ⟨above, .up step chain, body⟩
          | false => exact ⟨id, .here id, inside, parent, step, lower.trans made, higher⟩

/-- Every chain ends at the root, and a scope lies inside a function if and only if one scope on its
chain was made for a body. No other scope on that chain was. -/
structure OneBody (scopes : Scopes V) : Prop where
  ends : ∀ {id}, id < scopes.next → scopes.Chain id rootScope
  unique : ∀ {id above other}, scopes.Chain id above → scopes.Chain id other →
    scopes.IsBody above → scopes.IsBody other → above = other
  inside : ∀ id, scopes.insideFunction id = true ↔
    ∃ above, scopes.Chain id above ∧ scopes.IsBody above

/-- Where the scopes are grounded and in order, every chain has one body at most. -/
theorem Grounded.oneBody (grounded : scopes.Grounded) (ordered : scopes.Ordered) :
    scopes.OneBody where
  ends := grounded.chain_root ordered
  unique := grounded.body_unique
  inside _ := ⟨grounded.exists_body ordered,
    fun ⟨_, chain, body⟩ => grounded.inside_of_chain chain body⟩

end Scopes

end CommandScript.Machine
