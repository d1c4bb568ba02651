import CommandScript.Machine.Scope
import Mathlib.Data.List.Nodup
import Mathlib.Data.Set.Insert

/-!
# What a computation leaves alone in the scopes

Scopes below a bound are framed by a set of writable ones: the others stay as they are, and a
writable one gets nothing but further names after those that it binds already.
-/

namespace CommandScript

namespace Machine

variable {V : Type}

namespace Bindings

/-- The bindings `after` are those `before` with further names behind them, each bound once. -/
def Appended (before after : Bindings V) : Prop :=
  ∃ added : Bindings V, after = before ++ added ∧ (added.map Prod.fst).Nodup ∧
    (before.map Prod.fst).Disjoint (added.map Prod.fst)

theorem Appended.refl (bindings : Bindings V) : bindings.Appended bindings :=
  ⟨[], (List.append_nil _).symm, List.nodup_nil, List.disjoint_nil_right _⟩

theorem Appended.trans {before middle after : Bindings V}
    (first : before.Appended middle) (second : middle.Appended after) :
    before.Appended after := by
  obtain ⟨early, rfl, earlyOnce, earlyNew⟩ := first
  obtain ⟨late, rfl, lateOnce, lateNew⟩ := second
  rw [List.map_append, List.disjoint_append_left] at lateNew
  refine ⟨early ++ late, List.append_assoc .., ?_, ?_⟩
  · rw [List.map_append]
    exact earlyOnce.append lateOnce lateNew.2
  · rw [List.map_append, List.disjoint_append_right]
    exact ⟨earlyNew, lateNew.1⟩

/-- A name without a value is not among the names that are bound. -/
theorem not_mem_names_of_find?_eq_none {bindings : Bindings V} {name : Symbol}
    (unbound : bindings.find? name = none) : name ∉ bindings.map Prod.fst := by
  intro member
  obtain ⟨binding, present, named⟩ := List.mem_map.mp member
  have different := List.lookup_eq_none_iff.mp unbound binding present
  simp [named] at different

/-- A name that is not bound yet is bound at the end. -/
theorem assign_of_find?_eq_none {bindings : Bindings V} {name : Symbol} (value : V)
    (unbound : bindings.find? name = none) :
    bindings.assign name value = bindings ++ [(name, value)] := by
  induction bindings with
  | nil => rfl
  | cons binding rest ih =>
    obtain ⟨other, old⟩ := binding
    by_cases same : name = other
    · rw [find?_cons, if_pos same] at unbound
      exact absurd unbound (Option.some_ne_none old)
    · rw [find?_cons, if_neg same] at unbound
      rw [assign, if_neg (Ne.symm same), ih unbound, List.cons_append]

/-- To bind a name that is not bound yet appends to the bindings. -/
theorem appended_assign {bindings : Bindings V} {name : Symbol} (value : V)
    (unbound : bindings.find? name = none) :
    bindings.Appended (bindings.assign name value) := by
  refine ⟨[(name, value)], assign_of_find?_eq_none value unbound, List.nodup_singleton _, ?_⟩
  exact List.disjoint_singleton.mpr (not_mem_names_of_find?_eq_none unbound)

/-- What was bound keeps its value. -/
theorem Appended.find?_eq {before after : Bindings V} (appended : before.Appended after)
    {name : Symbol} {value : V} (bound : before.find? name = some value) :
    after.find? name = some value := by
  obtain ⟨added, rfl, -, -⟩ := appended
  rw [find?] at bound
  rw [find?, List.lookup_append, bound, Option.some_or]

end Bindings

namespace Scopes

/-- Of the scopes below a bound only the writable ones differ, and those only by names that have
been bound behind the others. No scope has been removed. -/
structure Framed (bound : ScopeId) (writable : Set ScopeId) (before after : Scopes V) : Prop where
  made : before.next ≤ after.next
  kept : ∀ id < bound, id ∉ writable → after.find? id = before.find? id
  grown : ∀ id < bound, ∀ scope, before.find? id = some scope →
    ∃ bindings, scope.bindings.Appended bindings ∧
      after.find? id = some { scope with bindings := bindings }

variable {bound lower : ScopeId} {writable wider : Set ScopeId} {before middle after : Scopes V}

theorem Framed.refl (bound : ScopeId) (writable : Set ScopeId) (scopes : Scopes V) :
    Framed bound writable scopes scopes :=
  ⟨Nat.le_refl _, fun _ _ _ => rfl, fun _ _ scope found => ⟨scope.bindings, .refl _, found⟩⟩

theorem Framed.trans (first : Framed bound writable before middle)
    (second : Framed bound writable middle after) : Framed bound writable before after := by
  refine ⟨first.made.trans second.made, ?_, ?_⟩
  · intro id below guarded
    rw [second.kept id below guarded, first.kept id below guarded]
  · intro id below scope found
    obtain ⟨early, grownFirst, foundFirst⟩ := first.grown id below scope found
    obtain ⟨late, grownSecond, foundSecond⟩ := second.grown id below _ foundFirst
    exact ⟨late, grownFirst.trans grownSecond, foundSecond⟩

/-- Below a lower bound only those writable scopes count that lie below it. -/
theorem Framed.weaken (framed : Framed bound writable before after) (le : lower ≤ bound)
    (inside : ∀ id < lower, id ∈ writable → id ∈ wider) : Framed lower wider before after where
  made := framed.made
  kept := fun id below guarded =>
    framed.kept id (below.trans_le le) fun member => guarded (inside id below member)
  grown := fun id below => framed.grown id (below.trans_le le)

/-- If the scopes below the bound are all found again, they are framed by no scope at all. -/
theorem Framed.of_kept (made : before.next ≤ after.next)
    (kept : ∀ id < bound, after.find? id = before.find? id) :
    Framed bound writable before after where
  made := made
  kept := fun id below _ => kept id below
  grown := fun id below scope found => ⟨scope.bindings, .refl _, (kept id below).trans found⟩

@[simp]
theorem next_assign (scopes : Scopes V) (id : ScopeId) (name : Symbol) (value : V) :
    (scopes.assign id name value).next = scopes.next :=
  Array.size_modify

/-- Scopes are numbered in the order in which they are made. -/
@[simp]
theorem next_add (scopes : Scopes V) (scope : Scope V) :
    (scopes.add scope).next = scopes.next + 1 :=
  Array.size_push ..

/-- An assignment changes what its scope binds. -/
theorem find?_assign_self (scopes : Scopes V) (id : ScopeId) (name : Symbol) (value : V) :
    (scopes.assign id name value).find? id = (scopes.find? id).map fun scope =>
      { scope with bindings := scope.bindings.assign name value } := by
  simp [find?, assign, Array.getElem?_modify]

/-- A name that is bound in a scope is found there. -/
theorem lookup_assign_self (scopes : Scopes V) {id : ScopeId} (made : id < scopes.next)
    (name : Symbol) (value : V) : (scopes.assign id name value).lookup id name = some value := by
  obtain ⟨scope, found⟩ : ∃ scope, scopes.find? id = some scope :=
    ⟨scopes.made[id], Array.getElem?_eq_getElem made⟩
  rw [lookup, lookupWithin, find?_assign_self, found]
  dsimp only [Option.map_some]
  rw [Bindings.find?_assign_self]

/-- A new block binds nothing. -/
theorem isFree_addBlock (scopes : Scopes V) (parent id : ScopeId) (name : Symbol) :
    (scopes.addBlock parent).isFree id name = scopes.isFree id name := by
  rw [isFree, isFree, bindings, bindings, addBlock, find?, find?, add, Array.getElem?_push]
  by_cases same : id = scopes.made.size
  · rw [if_pos same, same, Array.getElem?_size]
  · rw [if_neg same]

/-- A new scope is none of those below a bound that the next scope has passed. -/
theorem framed_add {scopes : Scopes V} (scope : Scope V) (reached : bound ≤ scopes.next) :
    Framed bound writable scopes (scopes.add scope) := by
  apply Framed.of_kept
  · rw [next_add]
    exact Nat.le_succ _
  · intro id below
    exact find?_add_of_lt scopes scope (below.trans_le reached)

/-- What is bound in a scope past the bound is not seen below it. -/
theorem framed_assign_past (scopes : Scopes V) {id : ScopeId} (name : Symbol) (value : V)
    (past : bound ≤ id) : Framed bound writable scopes (scopes.assign id name value) := by
  apply Framed.of_kept
  · rw [next_assign]
  · intro other below
    exact find?_assign_of_ne scopes name value (Nat.ne_of_lt (below.trans_le past))

/-- Scopes made since may be assigned to any number of times. -/
theorem framed_foldl_assign_past {scopes : Scopes V} {id : ScopeId} (past : bound ≤ id)
    (named : Bindings V) (framed : Framed bound writable before scopes) :
    Framed bound writable before
      (named.foldl (fun scopes binding => scopes.assign id binding.1 binding.2) scopes) := by
  induction named generalizing scopes with
  | nil => exact framed
  | cons binding rest ih =>
      apply ih
      exact framed.trans (framed_assign_past scopes binding.1 binding.2 past)

/-- A name that is free in a scope is not bound there. -/
theorem find?_eq_none_of_isFree {scopes : Scopes V} {id : ScopeId} {name : Symbol}
    (free : scopes.isFree id name = true) {scope : Scope V} (found : scopes.find? id = some scope) :
    scope.bindings.find? name = none := by
  rw [isFree, bindings, found] at free
  exact Option.isNone_iff_eq_none.mp free

/-- A name that a scope does not bind is bound behind the others. -/
theorem framed_assign_free {scopes : Scopes V} {id : ScopeId} {name : Symbol} (value : V)
    (free : scopes.isFree id name = true) (member : id ∈ writable) :
    Framed bound writable scopes (scopes.assign id name value) := by
  refine ⟨(next_assign ..).ge, ?_, ?_⟩
  · intro other below guarded
    apply find?_assign_of_ne
    rintro rfl
    exact guarded member
  · intro other below scope found
    by_cases same : other = id
    · subst same
      refine ⟨scope.bindings.assign name value,
        Bindings.appended_assign value (find?_eq_none_of_isFree free found), ?_⟩
      rw [find?_assign_self, found]
      rfl
    · exact ⟨scope.bindings, .refl _, (find?_assign_of_ne scopes name value same).trans found⟩

/-- A scope that is not writable binds the same names as before. -/
theorem Framed.isFree_eq (framed : Framed bound writable before after) {id : ScopeId}
    (below : id < bound) (guarded : id ∉ writable) (name : Symbol) :
    after.isFree id name = before.isFree id name := by
  rw [isFree, isFree, bindings, bindings, framed.kept id below guarded]

end Scopes

end Machine

end CommandScript
