import CommandScript.Machine.Basic
import CommandScript.Proofs.Machine.ScopeFrame

/-!
# What can be reached on a machine

Scopes lead to the scopes above them and to what they bind, functions to the scope they were defined
in, modules to their scope and to their functions, and a process to what the host keeps for it. What
cannot be reached from where a computation starts cannot be found by it, if the host does not make
up values: a process yields nothing that its arguments and what it keeps do not lead to.
-/

namespace CommandScript

namespace Machine

variable {Host : Type}

/-! ## Reachability -/

/-- What values lead to. -/
inductive Node where
  | scope (id : ScopeId)
  | module (id : ModuleId)
  | process (id : ProcessId)

/-- What a value leads to by itself. -/
def Value.nodes : Value → Set Node
  | .function called => {.scope called.closure}
  | .process id _ => {.process id}
  | .module id _ => {.module id}
  | _ => ∅

/-- What some of the values lead to. -/
def nodesOf (values : List Value) : Set Node :=
  {node | ∃ value ∈ values, node ∈ value.nodes}

/-- What the host keeps for each process. -/
abbrev Keeps (Host : Type) : Type :=
  ProcessId → Host → Set Node

/-- The machine leads from one of the roots to a node. -/
inductive Reaches (keeps : Keeps Host) (machine : Machine Host) (roots : Set Node) :
    Node → Prop where
  | root {node : Node} (member : node ∈ roots) : Reaches keeps machine roots node
  | parent {id parent : ScopeId} {scope : Scope Value}
    (below : Reaches keeps machine roots (.scope id)) (found : machine.scopes.find? id = some scope)
    (above : scope.parent = some parent) : Reaches keeps machine roots (.scope parent)
  | bound {id : ScopeId} {scope : Scope Value} {binding : Symbol × Value} {node : Node}
    (reached : Reaches keeps machine roots (.scope id))
    (found : machine.scopes.find? id = some scope) (member : binding ∈ scope.bindings)
    (leads : node ∈ binding.2.nodes) : Reaches keeps machine roots node
  | moduleScope {id : ModuleId} {module : Module}
    (reached : Reaches keeps machine roots (.module id)) (found : machine.module? id = some module) :
    Reaches keeps machine roots (.scope module.scope)
  | table {id : ModuleId} {module : Module} {entry : Symbol × Function}
    (reached : Reaches keeps machine roots (.module id)) (found : machine.module? id = some module)
    (member : entry ∈ module.functions) : Reaches keeps machine roots (.scope entry.2.closure)
  | kept {id : ProcessId} {node : Node} (reached : Reaches keeps machine roots (.process id))
    (member : node ∈ keeps id machine.host) : Reaches keeps machine roots node

/-- What a call of a function starts from: the closure of the function, the arguments, the module of
the call, the loaded modules and the root scope. -/
inductive CallRoot (machine : Machine Host) (function : Function) (values : List Value)
    (module : ModuleId) : Node → Prop where
  | closure : CallRoot machine function values module (.scope function.closure)
  | argument {node : Node} (member : node ∈ nodesOf values) :
    CallRoot machine function values module node
  | module : CallRoot machine function values module (.module module)
  | loaded {entry : String × ModuleId} (member : entry ∈ machine.registry) :
    CallRoot machine function values module (.module entry.2)
  | root : CallRoot machine function values module (.scope rootScope)

/-! ## The host -/

/-- The processes and the loader of a machine make up no values. What a process yields, and what the
host keeps after it has run, led from its arguments or was kept before. -/
structure HostLaws (keeps : Keeps Host) (machine : Machine Host) : Prop where
  yields : ∀ {id process}, machine.processes[id]? = some process → ∀ call host value,
    (process.run call host).1 = .ok value → value.nodes ⊆ keeps id host ∪ nodesOf call.args
  retains : ∀ {id process}, machine.processes[id]? = some process → ∀ call host other,
    keeps other (process.run call host).2 ⊆ keeps other host ∪ (keeps id host ∪ nodesOf call.args)
  loads : ∀ load ∈ machine.loader, ∀ path host other,
    keeps other (load path host).2 ⊆ keeps other host

/-! ## Sealed regions -/

/-- Nothing leads out of the region from its scopes. -/
structure Scopes.Closed (region : Set Node) (scopes : Scopes Value) : Prop where
  parent : ∀ {id scope}, .scope id ∈ region → scopes.find? id = some scope →
    ∀ above ∈ scope.parent, .scope above ∈ region
  bound : ∀ {id scope}, .scope id ∈ region → scopes.find? id = some scope →
    ∀ binding ∈ scope.bindings, binding.2.nodes ⊆ region

/-- Nothing leads out of the region from its modules. -/
structure ClosedModules (region : Set Node) (modules : Array Module) : Prop where
  scope : ∀ {id : ModuleId} {module}, .module id ∈ region → modules[id]? = some module →
    .scope module.scope ∈ region
  table : ∀ {id : ModuleId} {module}, .module id ∈ region → modules[id]? = some module →
    ∀ entry ∈ module.functions, .scope entry.2.closure ∈ region

/-- Nothing leads out of the region, and all that will be made lies in it. -/
structure Sealed (keeps : Keeps Host) (region : Set Node) (machine : Machine Host) : Prop where
  laws : HostLaws keeps machine
  scopes : machine.scopes.Closed region
  modules : ClosedModules region machine.modules
  loaded : ∀ entry ∈ machine.registry, .module entry.2 ∈ region
  root : .scope rootScope ∈ region
  kept : ∀ {id}, .process id ∈ region → keeps id machine.host ⊆ region
  newScope : ∀ {id}, machine.scopes.next ≤ id → .scope id ∈ region
  newModule : ∀ {id}, machine.modules.size ≤ id → .module id ∈ region

/-- What a call can reach, together with all that is not made yet. -/
inductive CallRegion (keeps : Keeps Host) (machine : Machine Host) (function : Function)
    (values : List Value) (module : ModuleId) : Node → Prop where
  | reached {node : Node}
    (reaches : machine.Reaches keeps (CallRoot machine function values module) node) :
    CallRegion keeps machine function values module node
  | newScope {id : ScopeId} (new : machine.scopes.next ≤ id) :
    CallRegion keeps machine function values module (.scope id)
  | newModule {id : ModuleId} (new : machine.modules.size ≤ id) :
    CallRegion keeps machine function values module (.module id)

/-- The region of a call as a set. -/
def callRegion (keeps : Keeps Host) (machine : Machine Host) (function : Function)
    (values : List Value) (module : ModuleId) : Set Node :=
  {node | CallRegion keeps machine function values module node}

/-- A scope that is found has been made. -/
theorem Scopes.lt_next_of_find? {V : Type} {scopes : Scopes V} {id : ScopeId} {scope : Scope V}
    (found : scopes.find? id = some scope) : id < scopes.next :=
  (Array.getElem?_eq_some_iff.mp found).1

/-- What a call may reach, together with all that is not made yet, is sealed. -/
theorem sealed_callRegion {keeps : Keeps Host} {machine : Machine Host}
    (laws : HostLaws keeps machine) (function : Function) (values : List Value)
    (module : ModuleId) :
    machine.Sealed keeps (callRegion keeps machine function values module) where
  laws := laws
  scopes := by
    refine ⟨?_, ?_⟩
    · intro id scope inside found above isParent
      cases inside with
      | reached reaches => exact .reached (.parent reaches found isParent)
      | newScope new => exact absurd (Scopes.lt_next_of_find? found) (Nat.not_lt_of_le new)
    · intro id scope inside found binding member node leads
      cases inside with
      | reached reaches => exact .reached (.bound reaches found member leads)
      | newScope new => exact absurd (Scopes.lt_next_of_find? found) (Nat.not_lt_of_le new)
  modules := by
    refine ⟨?_, ?_⟩
    · intro id module inside found
      cases inside with
      | reached reaches => exact .reached (.moduleScope reaches found)
      | newModule new =>
          exact absurd (Array.getElem?_eq_some_iff.mp found).1 (Nat.not_lt_of_le new)
    · intro id module inside found entry member
      cases inside with
      | reached reaches => exact .reached (.table reaches found member)
      | newModule new =>
          exact absurd (Array.getElem?_eq_some_iff.mp found).1 (Nat.not_lt_of_le new)
  loaded entry member := .reached (.root (.loaded member))
  root := .reached (.root .root)
  kept {id} inside node member := by
    cases inside with
    | reached reaches => exact .reached (.kept reaches member)
  newScope new := .newScope new
  newModule new := .newModule new

end Machine

end CommandScript
