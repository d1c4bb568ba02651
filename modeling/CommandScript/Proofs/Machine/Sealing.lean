import CommandScript.Proofs.Machine.Reachability
import CommandScript.Proofs.Machine.Requests

/-!
# Steps inside a sealed region

A computation that begins inside a sealed region stays there: what it finds lies in the region, and
what it makes, binds and defines leaves the region sealed.
-/

namespace CommandScript

namespace Machine

variable {Host : Type} {keeps : Keeps Host} {region : Set Node} {machine : Machine Host}

/-- What is found by a key is an entry of the list. -/
theorem mem_of_lookup_eq_some {Key V : Type} [BEq Key] [LawfulBEq Key] {entries : List (Key × V)}
    {key : Key} {value : V} (found : entries.lookup key = some value) : (key, value) ∈ entries := by
  obtain ⟨before, after, split, -⟩ := List.lookup_eq_some_iff.mp found
  rw [split]
  exact List.mem_append_right before List.mem_cons_self

/-! ## Scopes -/

/-- A binding is an old one, or it has the value that was bound. -/
theorem Bindings.mem_assign {V : Type} {bindings : Bindings V} {name : Symbol} {value : V}
    {binding : Symbol × V} (member : binding ∈ bindings.assign name value) :
    binding ∈ bindings ∨ binding.2 = value := by
  induction bindings with
  | nil =>
      rw [Bindings.assign, List.mem_singleton] at member
      exact .inr (member ▸ rfl)
  | cons first rest ih =>
      obtain ⟨other, old⟩ := first
      rw [Bindings.assign] at member
      split at member
      · rcases List.mem_cons.mp member with same | inRest
        · exact .inr (same ▸ rfl)
        · exact .inl (List.mem_cons_of_mem _ inRest)
      · rcases List.mem_cons.mp member with same | inRest
        · exact .inl (same ▸ List.mem_cons_self)
        · exact (ih inRest).imp_left (List.mem_cons_of_mem _)

namespace Scopes

/-- A scope that is added is found under its number; the others stay. -/
theorem find?_add {V : Type} (scopes : Scopes V) (scope : Scope V) (id : ScopeId) :
    (scopes.add scope).find? id = if id = scopes.next then some scope else scopes.find? id :=
  Array.getElem?_push

/-- An assignment changes one scope. -/
theorem find?_assign {V : Type} (scopes : Scopes V) (id other : ScopeId) (name : Symbol)
    (value : V) :
    (scopes.assign id name value).find? other =
      if other = id then
        (scopes.find? id).map fun scope =>
          { scope with bindings := scope.bindings.assign name value }
      else scopes.find? other := by
  by_cases same : other = id
  · rw [if_pos same, same, find?_assign_self]
  · rw [if_neg same, find?_assign_of_ne scopes name value same]

/-- What a look-up finds is bound in a scope that has whatever property goes up the parents. -/
theorem exists_of_lookup {V : Type} {scopes : Scopes V} {holds : ScopeId → Prop}
    (above : ∀ {id scope}, holds id → scopes.find? id = some scope →
      ∀ parent, scope.parent = some parent → holds parent)
    {id : ScopeId} (here : holds id) {name : Symbol} {value : V}
    (found : scopes.lookup id name = some value) :
    ∃ holder scope, holds holder ∧ scopes.find? holder = some scope ∧
      (name, value) ∈ scope.bindings := by
  rw [Scopes.lookup] at found
  generalize id + 1 = steps at found
  induction steps generalizing id with
  | zero => cases found
  | succ steps ih =>
      rw [lookupWithin] at found
      split at found
      · cases found
      · rename_i scope there
        split at found
        · rename_i held bound
          cases found
          exact ⟨id, scope, here, there, mem_of_lookup_eq_some bound⟩
        · split at found
          · rename_i parent up
            exact ih (above here there parent up) found
          · cases found

variable {scopes : Scopes Value}

/-- A scope that is made below one of the region may be added to it. -/
theorem Closed.add (closed : scopes.Closed region) {parent : ScopeId}
    (inside : .scope parent ∈ region) (function : Bool) :
    (scopes.add ⟨some parent, [], function⟩).Closed region := by
  refine ⟨?_, ?_⟩
  · intro id scope member found above isParent
    rw [find?_add] at found
    split at found
    · cases found
      cases isParent
      exact inside
    · exact closed.parent member found above isParent
  · intro id scope member found binding bound
    rw [find?_add] at found
    split at found
    · cases found
      cases bound
    · exact closed.bound member found binding bound

theorem Closed.assign (closed : scopes.Closed region) (id : ScopeId) (name : Symbol)
    {value : Value} (good : value.nodes ⊆ region) :
    (scopes.assign id name value).Closed region := by
  have old : ∀ {other scope}, (scopes.assign id name value).find? other = some scope →
      ∃ before, scopes.find? other = some before ∧ scope.parent = before.parent ∧
        ∀ binding ∈ scope.bindings, binding ∈ before.bindings ∨ binding.2 = value := by
    intro other scope found
    rw [find?_assign] at found
    split at found
    · rename_i same
      obtain ⟨before, there, rfl⟩ := Option.map_eq_some_iff.mp found
      exact ⟨before, same ▸ there, rfl, fun _ => Bindings.mem_assign⟩
    · exact ⟨scope, found, rfl, fun _ => .inl⟩
  refine ⟨?_, ?_⟩
  · intro other scope member found
    obtain ⟨before, there, parent, -⟩ := old found
    rw [parent]
    exact closed.parent member there
  · intro other scope member found binding bound
    obtain ⟨before, there, -, bindings⟩ := old found
    rcases bindings binding bound with kept | new
    · exact closed.bound member there binding kept
    · exact new ▸ good

/-- Values that stay in the region may be assigned one after the other. -/
theorem Closed.foldl_assign (closed : scopes.Closed region) (id : ScopeId)
    {named : Bindings Value} (good : ∀ binding ∈ named, binding.2.nodes ⊆ region) :
    (named.foldl (fun scopes binding => scopes.assign id binding.1 binding.2) scopes).Closed
      region := by
  induction named generalizing scopes with
  | nil => exact closed
  | cons binding rest ih =>
      rw [List.forall_mem_cons] at good
      exact ih (closed.assign id binding.1 good.1) good.2

/-- Assignments make no scope. -/
theorem next_foldl_assign {V : Type} (scopes : Scopes V) (id : ScopeId) (named : Bindings V) :
    (named.foldl (fun scopes binding => scopes.assign id binding.1 binding.2) scopes).next =
      scopes.next := by
  induction named generalizing scopes with
  | nil => rfl
  | cons binding rest ih => exact (ih _).trans (next_assign ..)

/-- What a look-up finds from inside the region lies inside. -/
theorem Closed.lookup (closed : scopes.Closed region) {id : ScopeId} (inside : .scope id ∈ region)
    {name : Symbol} {value : Value} (found : scopes.lookup id name = some value) :
    value.nodes ⊆ region := by
  obtain ⟨holder, scope, member, there, bound⟩ := exists_of_lookup closed.parent inside found
  exact closed.bound member there _ bound

end Scopes

/-! ## Machines -/

namespace Sealed

/-- What is reached from inside lies inside. -/
theorem mem_of_reaches (closed : machine.Sealed keeps region) {roots : Set Node}
    (inside : roots ⊆ region) {node : Node} (reaches : machine.Reaches keeps roots node) :
    node ∈ region := by
  induction reaches with
  | root member => exact inside member
  | parent _ found above ih => exact closed.scopes.parent ih found _ above
  | bound _ found member leads ih => exact closed.scopes.bound ih found _ member leads
  | moduleScope _ found ih => exact closed.modules.scope ih found
  | table _ found member ih => exact closed.modules.table ih found _ member
  | kept _ member ih => exact closed.kept ih member

/-- Further scopes and bindings do not matter, if nothing leads out of the region from them. -/
theorem withScopes (closed : machine.Sealed keeps region) {scopes : Scopes Value}
    (inside : scopes.Closed region) (made : machine.scopes.next ≤ scopes.next) :
    Machine.Sealed keeps region { machine with scopes := scopes } where
  laws := ⟨closed.laws.yields, closed.laws.retains, closed.laws.loads⟩
  scopes := inside
  modules := closed.modules
  loaded := closed.loaded
  root := closed.root
  kept := closed.kept
  newScope past := closed.newScope (made.trans past)
  newModule := closed.newModule

theorem addBlock (closed : machine.Sealed keeps region) {parent : ScopeId}
    (inside : .scope parent ∈ region) :
    Machine.Sealed keeps region { machine with scopes := machine.scopes.addBlock parent } :=
  closed.withScopes (closed.scopes.add inside _) ((Scopes.next_add ..).symm ▸ Nat.le_succ _)

/-- A function that closes over a scope of the region may be entered. -/
theorem enterFunction (closed : machine.Sealed keeps region) {parent : ScopeId}
    (inside : .scope parent ∈ region) (id : ScopeId) {named : Bindings Value}
    (good : ∀ binding ∈ named, binding.2.nodes ⊆ region) :
    Machine.Sealed keeps region { machine with
      scopes := named.foldl (fun scopes binding => scopes.assign id binding.1 binding.2)
        (machine.scopes.addFunction parent) } := by
  apply closed.withScopes
  · exact (closed.scopes.add inside true).foldl_assign id good
  · rw [Scopes.next_foldl_assign, Scopes.addFunction, Scopes.next_add]
    exact Nat.le_succ _

theorem assign (closed : machine.Sealed keeps region) (id : ScopeId) (name : Symbol)
    {value : Value} (good : value.nodes ⊆ region) :
    Machine.Sealed keeps region { machine with scopes := machine.scopes.assign id name value } :=
  closed.withScopes (closed.scopes.assign id name good) (Scopes.next_assign ..).ge

/-- The functions of a module in the region close over scopes of the region. -/
theorem function? (closed : machine.Sealed keeps region) {id : ModuleId}
    (inside : .module id ∈ region) {name : Symbol} {function : Function}
    (found : machine.function? id name = some function) : .scope function.closure ∈ region := by
  obtain ⟨module, there, held⟩ := Option.bind_eq_some_iff.mp found
  exact closed.modules.table inside there _ (mem_of_lookup_eq_some held)

/-- All modules that are loaded lie in the region. -/
theorem loaded? (closed : machine.Sealed keeps region) {path : String} {id : ModuleId}
    (found : machine.loaded? path = some id) : .module id ∈ region :=
  closed.loaded _ (mem_of_lookup_eq_some found)

/-- A function that closes over a scope of the region may be defined. -/
theorem define (closed : machine.Sealed keeps region) (id : ModuleId) {function : Function}
    (inside : .scope function.closure ∈ region) :
    (machine.define id function).Sealed keeps region := by
  have old : ∀ {other : ModuleId} {module : Module},
      (machine.define id function).modules[other]? = some module →
      ∃ before, machine.modules[other]? = some before ∧ module.scope = before.scope ∧
        ∀ entry ∈ module.functions, entry ∈ before.functions ∨ entry.2 = function := by
    intro other module found
    rw [Machine.define, Array.getElem?_modify] at found
    split at found
    · obtain ⟨before, there, rfl⟩ := Option.map_eq_some_iff.mp found
      refine ⟨before, there, rfl, fun entry member => ?_⟩
      rcases List.mem_append.mp member with kept | new
      · exact .inl kept
      · exact .inr (List.mem_singleton.mp new ▸ rfl)
    · exact ⟨module, found, rfl, fun _ => .inl⟩
  refine ⟨⟨closed.laws.yields, closed.laws.retains, closed.laws.loads⟩, closed.scopes, ⟨?_, ?_⟩,
    closed.loaded, closed.root, closed.kept, closed.newScope, ?_⟩
  · intro other module member found
    obtain ⟨before, there, scope, -⟩ := old found
    rw [scope]
    exact closed.modules.scope member there
  · intro other module member found entry held
    obtain ⟨before, there, -, entries⟩ := old found
    rcases entries entry held with kept | new
    · exact closed.modules.table member there entry kept
    · exact new ▸ inside
  · intro other past
    rw [Machine.define, Array.size_modify] at past
    exact closed.newModule past

/-- A new module and its scope lie in the region, as all that is new. -/
theorem addModule (closed : machine.Sealed keeps region) (path : String) :
    (machine.addModule path).Sealed keeps region := by
  have scopes := closed.scopes.add closed.root (machine.scopes.insideFunction rootScope)
  refine ⟨⟨closed.laws.yields, closed.laws.retains, closed.laws.loads⟩, scopes, ⟨?_, ?_⟩, ?_,
    closed.root, closed.kept, ?_, ?_⟩
  · intro id module member found
    rw [Machine.addModule, Array.getElem?_push] at found
    split at found
    · cases found
      exact closed.newScope (Nat.le_refl _)
    · exact closed.modules.scope member found
  · intro id module member found entry held
    rw [Machine.addModule, Array.getElem?_push] at found
    split at found
    · cases found
      cases held
    · exact closed.modules.table member found entry held
  · intro entry member
    rcases List.mem_append.mp member with old | new
    · exact closed.loaded entry old
    · rw [List.mem_singleton.mp new]
      exact closed.newModule (Nat.le_refl _)
  · intro id past
    rw [Machine.addModule, Scopes.addBlock, Scopes.next_add] at past
    exact closed.newScope ((Nat.le_succ _).trans past)
  · intro id past
    rw [Machine.addModule, Array.size_push] at past
    exact closed.newModule ((Nat.le_succ _).trans past)

/-- To take a path out of the registry leaves the region sealed. -/
theorem unregister (closed : machine.Sealed keeps region) (path : String) :
    (machine.unregister path).Sealed keeps region where
  laws := ⟨closed.laws.yields, closed.laws.retains, closed.laws.loads⟩
  scopes := closed.scopes
  modules := closed.modules
  loaded entry member := closed.loaded entry (List.mem_filter.mp member).1
  root := closed.root
  kept := closed.kept
  newScope := closed.newScope
  newModule := closed.newModule

/-- Another state of the host does not matter, if the processes inside keep nothing from outside. -/
theorem withHost (closed : machine.Sealed keeps region) {host : Host}
    (kept : ∀ id, .process id ∈ region → keeps id host ⊆ region) :
    Machine.Sealed keeps region { machine with host := host } where
  laws := ⟨closed.laws.yields, closed.laws.retains, closed.laws.loads⟩
  scopes := closed.scopes
  modules := closed.modules
  loaded := closed.loaded
  root := closed.root
  kept := kept _
  newScope := closed.newScope
  newModule := closed.newModule

theorem onlyMailboxes (closed : machine.Sealed keeps region) {after : Machine Host}
    (only : machine.OnlyMailboxes after) : after.Sealed keeps region := by
  obtain ⟨mailboxes, rfl⟩ := only
  exact ⟨⟨closed.laws.yields, closed.laws.retains, closed.laws.loads⟩, closed.scopes,
    closed.modules, closed.loaded, closed.root, closed.kept, closed.newScope, closed.newModule⟩

/-! ## Host processes and the loader -/

section Process

variable (closed : machine.Sealed keeps region) {id : ProcessId} (inside : .process id ∈ region)
  {values : List Value} (good : ∀ value ∈ values, value.nodes ⊆ region)
include closed inside good

/-- All that a process of the region can get at lies in the region. -/
theorem process_supply : keeps id machine.host ∪ nodesOf values ⊆ region := by
  apply Set.union_subset (closed.kept inside)
  rintro node ⟨value, member, leads⟩
  exact good value member leads

variable {process : HostProcess Host} (found : machine.processes[id]? = some process)
include found

/-- What a process of the region yields stays in the region. -/
theorem process_yields (counts : Value.MailboxCounts) {value : Value}
    (yielded : (process.run ⟨values, counts⟩ machine.host).1 = .ok value) :
    value.nodes ⊆ region :=
  (closed.laws.yields found ⟨values, counts⟩ machine.host value yielded).trans
    (closed.process_supply inside good)

/-- What the host keeps after a process has run stays in the region. -/
theorem afterProcess (counts : Value.MailboxCounts) :
    Machine.Sealed keeps region
      { machine with host := (process.run ⟨values, counts⟩ machine.host).2 } := by
  apply closed.withHost
  intro other member
  apply (closed.laws.retains found ⟨values, counts⟩ machine.host other).trans
  exact Set.union_subset (closed.kept member) (closed.process_supply inside good)

end Process

/-- What the host keeps after a load stays in the region. -/
theorem afterLoad (closed : machine.Sealed keeps region) {load : Loader Host}
    (present : machine.loader = some load) (path : String) :
    Machine.Sealed keeps region { machine with host := (load path machine.host).2 } := by
  apply closed.withHost
  intro id inside
  exact (closed.laws.loads load (present ▸ rfl) path machine.host id).trans (closed.kept inside)

end Sealed

end Machine

end CommandScript
