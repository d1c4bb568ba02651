import CommandScript.Symbol

/-!
# Scopes

Scopes form a forest and are never removed. A scope keeps its bindings in the order in which the
names were first bound, and a name that it does not bind is looked up in the scopes above it.
Whether a scope lies inside a function is settled when it is made: a scope below such a scope does
too.

The parent of a scope is made before the scope, so that its identifier is smaller. A look-up
therefore takes no more steps than the identifier of the scope it starts from.
-/

namespace CommandScript.Machine

/-- Scopes are numbered in the order in which they are made. -/
abbrev ScopeId : Type := Nat

/-- The names bound in a scope with their values, in the order in which they were first bound. -/
abbrev Bindings (V : Type) : Type := List (Symbol × V)

/-- The value of a name. -/
def Bindings.find? {V : Type} (bindings : Bindings V) (name : Symbol) : Option V :=
  bindings.lookup name

/-- The bindings with a name bound anew: in its place if it is bound already, otherwise at the
end. -/
def Bindings.assign {V : Type} (name : Symbol) (value : V) : Bindings V → Bindings V
  | [] => [(name, value)]
  | (other, old) :: rest =>
    if other = name then (other, value) :: rest
    else (other, old) :: Bindings.assign name value rest

@[simp]
theorem Bindings.find?_nil {V : Type} (name : Symbol) :
    Bindings.find? ([] : Bindings V) name = none :=
  rfl

/-- The first binding of a name hides the later ones. -/
theorem Bindings.find?_cons {V : Type} (other name : Symbol) (value : V) (rest : Bindings V) :
    Bindings.find? ((other, value) :: rest) name =
      if name = other then some value else Bindings.find? rest name := by
  by_cases h : name = other
  · simp [Bindings.find?, h]
  · rw [if_neg h, Bindings.find?, List.lookup_cons, beq_false_of_ne h]
    rfl

/-- A name that has just been bound has the value it was bound to. -/
theorem Bindings.find?_assign_self {V : Type} (bindings : Bindings V) (name : Symbol) (value : V) :
    (bindings.assign name value).find? name = some value := by
  induction bindings with
  | nil => simp [Bindings.assign, Bindings.find?_cons]
  | cons binding rest ih =>
    obtain ⟨other, old⟩ := binding
    by_cases h : other = name
    · simp [Bindings.assign, h, Bindings.find?_cons]
    · rw [Bindings.assign, if_neg h, Bindings.find?_cons, if_neg (Ne.symm h)]
      exact ih

/-- Binding a name leaves the values of all others. -/
theorem Bindings.find?_assign_of_ne {V : Type} (bindings : Bindings V) {name other : Symbol}
    (value : V) (hne : other ≠ name) :
    (bindings.assign name value).find? other = bindings.find? other := by
  induction bindings with
  | nil => simp [Bindings.assign, Bindings.find?_cons, hne]
  | cons binding rest ih =>
    obtain ⟨first, old⟩ := binding
    by_cases h : first = name
    · subst h
      simp [Bindings.assign, Bindings.find?_cons, hne]
    · rw [Bindings.assign, if_neg h, Bindings.find?_cons, Bindings.find?_cons, ih]

/-- A scope: the scope above it, its bindings, and whether it lies inside a function. -/
structure Scope (V : Type) where
  parent : Option ScopeId
  bindings : Bindings V
  insideFunction : Bool

/-- All scopes that have been made. -/
structure Scopes (V : Type) where
  made : Array (Scope V)

namespace Scopes

variable {V : Type}

/-- No scope has been made. -/
def empty : Scopes V :=
  ⟨#[]⟩

/-- The scope of an identifier. -/
def find? (scopes : Scopes V) (id : ScopeId) : Option (Scope V) :=
  scopes.made[id]?

/-- The identifier of the next scope. -/
def next (scopes : Scopes V) : ScopeId :=
  scopes.made.size

/-- The scopes with one more. -/
def add (scopes : Scopes V) (scope : Scope V) : Scopes V :=
  ⟨scopes.made.push scope⟩

/-- A new scope leaves those that were made before. -/
theorem find?_add_of_lt (scopes : Scopes V) (scope : Scope V) {id : ScopeId}
    (hid : id < scopes.next) : (scopes.add scope).find? id = scopes.find? id := by
  have hne : id ≠ scopes.made.size := Nat.ne_of_lt hid
  simp [find?, add, Array.getElem?_push, hne]

/-- A new scope is found under the identifier that was next. -/
theorem find?_add_next (scopes : Scopes V) (scope : Scope V) :
    (scopes.add scope).find? scopes.next = some scope := by
  simp [find?, add, next]

/-- The scope lies inside a function. -/
def insideFunction (scopes : Scopes V) (id : ScopeId) : Bool :=
  (scopes.find? id).any Scope.insideFunction

/-- The scope above a scope. -/
def parent? (scopes : Scopes V) (id : ScopeId) : Option ScopeId :=
  (scopes.find? id).bind Scope.parent

/-- The scopes with a scope that has none above it. -/
def addRoot (scopes : Scopes V) : Scopes V :=
  scopes.add ⟨none, [], false⟩

/-- The scopes with a block below a scope. -/
def addBlock (scopes : Scopes V) (parent : ScopeId) : Scopes V :=
  scopes.add ⟨some parent, [], scopes.insideFunction parent⟩

/-- The scopes with the scope of a function body below a scope. -/
def addFunction (scopes : Scopes V) (parent : ScopeId) : Scopes V :=
  scopes.add ⟨some parent, [], true⟩

/-- The bindings of a scope, those above it left aside. -/
def bindings (scopes : Scopes V) (id : ScopeId) : Bindings V :=
  match scopes.find? id with
  | some scope => scope.bindings
  | none => []

/-- The names bound in a scope, in order. -/
def names (scopes : Scopes V) (id : ScopeId) : List Symbol :=
  (scopes.bindings id).map Prod.fst

/-- The scope does not bind the name itself. -/
def isFree (scopes : Scopes V) (id : ScopeId) (name : Symbol) : Bool :=
  ((scopes.bindings id).find? name).isNone

/-- The scopes with a name bound in a scope, whether it is bound there already or not. -/
def assign (scopes : Scopes V) (id : ScopeId) (name : Symbol) (value : V) : Scopes V :=
  ⟨scopes.made.modify id fun scope => { scope with bindings := scope.bindings.assign name value }⟩

/-- The scopes with a name bound in a scope that does not bind it. -/
def bind? (scopes : Scopes V) (id : ScopeId) (name : Symbol) (value : V) : Option (Scopes V) :=
  if scopes.isFree id name then some (scopes.assign id name value) else none

/-- Binding a name in one scope leaves the others. -/
theorem find?_assign_of_ne (scopes : Scopes V) {id other : ScopeId} (name : Symbol) (value : V)
    (hne : other ≠ id) : (scopes.assign id name value).find? other = scopes.find? other := by
  simp [find?, assign, Array.getElem?_modify, Ne.symm hne]

/-- The value of a name in a scope or one of the given number of scopes above it. -/
def lookupWithin (scopes : Scopes V) (name : Symbol) : Nat → ScopeId → Option V
  | 0, _ => none
  | steps + 1, id =>
    match scopes.find? id with
    | none => none
    | some scope =>
      match scope.bindings.find? name with
      | some value => some value
      | none =>
        match scope.parent with
        | some parent => scopes.lookupWithin name steps parent
        | none => none

/-- The value of a name in a scope or the nearest scope above it that binds it. -/
def lookup (scopes : Scopes V) (id : ScopeId) (name : Symbol) : Option V :=
  scopes.lookupWithin name (id + 1) id

/-- The scope as a diagnostic shows it. -/
def inspected (scopes : Scopes V) (id : ScopeId) : String :=
  "Context \x7b names: [" ++ String.intercalate ", " ((scopes.names id).map Symbol.inspected) ++
    "], is_function: " ++ Text.truthText (scopes.insideFunction id) ++
    ", has_parent: " ++ Text.truthText (scopes.parent? id).isSome ++ " \x7d"

end Scopes

end CommandScript.Machine
