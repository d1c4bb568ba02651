import CommandScript.Loader.Basic
import CommandScript.Proofs.Machine.Soundness
import Mathlib.Data.Finset.Card

/-!
# Machines without functions

On a machine whose tables are empty there is no function at all, if the host has made up none: none
is bound to a name, and the host keeps none. It stays so until one is defined. What is loaded from
memory uses up the modules there: a module that is registered is not loaded again.
-/

namespace CommandScript.Machine

variable {Host : Type} {keeps : Keeps Host} {memory : Loader.Memory}
  {machine before middle after : Machine Host}

/-! ## Machines without functions -/

/-- The value leads to no scope: it is no function. -/
def Value.IsPlain (value : Value) : Prop :=
  ∀ scope, Node.scope scope ∉ value.nodes

/-- A value that leads nowhere is plain. -/
theorem Value.isPlain_of_nodes {value : Value} (nowhere : value.nodes = ∅) : value.IsPlain :=
  fun scope member => Set.notMem_empty (Node.scope scope) (nowhere ▸ member)

/-- No module has a function in its table. -/
def HasEmptyTables (machine : Machine Host) : Prop :=
  ∀ module ∈ machine.modules, module.functions = []

/-- No function is found in an empty table. -/
theorem HasEmptyTables.function?_eq_none (empty : machine.HasEmptyTables) (id : ModuleId)
    (name : Symbol) : machine.function? id name = none := by
  rw [function?]
  cases found : machine.module? id with
  | none => rfl
  | some module =>
      rw [Option.bind_some, empty module (Array.mem_of_getElem? found)]
      rfl

/-- The modules of the machine are loaded from memory, if from anywhere. -/
def LoadsFrom (memory : Loader.Memory) (machine : Machine Host) : Prop :=
  ∀ load ∈ machine.loader, load = Loader.ofFunction memory.load

/-- There is no function on the machine, and neither the processes of the host nor its loader make
one up. -/
structure Functionless (keeps : Keeps Host) (memory : Loader.Memory) (machine : Machine Host) :
    Prop where
  laws : HostLaws keeps machine
  loads : machine.LoadsFrom memory
  tables : machine.HasEmptyTables
  bound : machine.scopes.BindsOnly Value.IsPlain
  kept : ∀ id scope, .scope scope ∉ keeps id machine.host

/-- On a sound machine the functions are those in the tables. -/
theorem Sound.functionless (sound : machine.Sound keeps True) (tables : machine.HasEmptyTables)
    (loads : machine.LoadsFrom memory) : machine.Functionless keeps memory := by
  have none (scope : ScopeId) : ¬machine.IsClosure scope := by
    rintro ⟨id, module, found, entry, member, -⟩
    rw [tables module (Array.mem_of_getElem? found)] at member
    cases member
  have supplied := sound.supplied trivial
  refine ⟨supplied.laws, loads, tables, ?_, fun id scope member => ?_⟩
  · intro id scope found binding member inner leads
    exact none inner (supplied.bound id scope found binding member inner leads)
  · exact none scope (supplied.kept id scope member)

namespace Functionless

variable (functionless : machine.Functionless keeps memory)
include functionless

/-- What is found in a scope is plain. -/
theorem isPlain_of_lookup {id : ScopeId} {name : Symbol} {value : Value}
    (found : machine.scopes.lookup id name = some value) : value.IsPlain :=
  functionless.bound.lookup found

/-- The scopes may be replaced by others that bind plain values. -/
theorem withScopes {scopes : Scopes Value} (bound : scopes.BindsOnly Value.IsPlain) :
    Machine.Functionless keeps memory { machine with scopes := scopes } where
  laws := ⟨functionless.laws.yields, functionless.laws.retains, functionless.laws.loads⟩
  loads := functionless.loads
  tables := functionless.tables
  bound := bound
  kept := functionless.kept

theorem addBlock (parent : ScopeId) :
    Machine.Functionless keeps memory { machine with scopes := machine.scopes.addBlock parent } :=
  functionless.withScopes (functionless.bound.add (some parent) _)

theorem assign (id : ScopeId) (name : Symbol) {value : Value} (plain : value.IsPlain) :
    Machine.Functionless keeps memory
      { machine with scopes := machine.scopes.assign id name value } :=
  functionless.withScopes (functionless.bound.assign id name plain)

/-- The host may change as long as it keeps nothing. -/
theorem withHost {host : Host} (kept : ∀ id scope, .scope scope ∉ keeps id host) :
    Machine.Functionless keeps memory { machine with host := host } where
  laws := ⟨functionless.laws.yields, functionless.laws.retains, functionless.laws.loads⟩
  loads := functionless.loads
  tables := functionless.tables
  bound := functionless.bound
  kept := kept

theorem onlyMailboxes (only : machine.OnlyMailboxes after) :
    after.Functionless keeps memory := by
  obtain ⟨mailboxes, rfl⟩ := only
  exact ⟨⟨functionless.laws.yields, functionless.laws.retains, functionless.laws.loads⟩,
    functionless.loads, functionless.tables, functionless.bound, functionless.kept⟩

/-- A module may be added, since it has no functions yet. -/
theorem addModule (path : String) : (machine.addModule path).Functionless keeps memory where
  laws := ⟨functionless.laws.yields, functionless.laws.retains, functionless.laws.loads⟩
  loads := functionless.loads
  tables module member := by
    rcases Array.mem_push.mp member with old | rfl
    · exact functionless.tables module old
    · rfl
  bound := functionless.bound.add (some rootScope) _
  kept := functionless.kept

section Process

variable {id : ProcessId} {process : HostProcess Host}
  (found : machine.processes[id]? = some process) {values : List Value}
  (plain : ∀ value ∈ values, value.IsPlain) (counts : Value.MailboxCounts)
include found plain

/-- What a process has been given leads to no function. -/
theorem process_yields {value : Value}
    (yielded : (process.run ⟨values, counts⟩ machine.host).1 = .ok value) : value.IsPlain := by
  intro scope leads
  rcases functionless.laws.yields found _ _ _ yielded leads with kept | ⟨given, member, through⟩
  · exact functionless.kept id scope kept
  · exact plain given member scope through

/-- The host may be what a process has made of it. -/
theorem afterProcess :
    Machine.Functionless keeps memory
      { machine with host := (process.run ⟨values, counts⟩ machine.host).2 } := by
  refine functionless.withHost fun other scope member => ?_
  rcases functionless.laws.retains found ⟨values, counts⟩ machine.host other member with
    old | kept | ⟨given, among, through⟩
  · exact functionless.kept other scope old
  · exact functionless.kept id scope kept
  · exact plain given among scope through

end Process

end Functionless

/-! ## Modules that are left to load -/

/-- Under every path under which a module was registered there still is one. -/
def KeepsRegistered (before after : Machine Host) : Prop :=
  ∀ path, after.loaded? path = none → before.loaded? path = none

theorem KeepsRegistered.refl (machine : Machine Host) : machine.KeepsRegistered machine :=
  fun _ absent => absent

theorem KeepsRegistered.trans (first : before.KeepsRegistered middle)
    (second : middle.KeepsRegistered after) : before.KeepsRegistered after :=
  fun path absent => first path (second path absent)

/-- With the same registry all modules stay registered. -/
theorem KeepsRegistered.of_registry (same : after.registry = before.registry) :
    before.KeepsRegistered after := by
  intro path absent
  rw [loaded?, ← same]
  exact absent

/-- A change of mailboxes keeps all modules registered. -/
theorem OnlyMailboxes.keepsRegistered (only : before.OnlyMailboxes after) :
    before.KeepsRegistered after :=
  .of_registry only.sameModules.registry

/-- A new module puts none out of the registry. -/
theorem keepsRegistered_addModule (machine : Machine Host) (path : String) :
    machine.KeepsRegistered (machine.addModule path) := by
  intro other absent
  rw [loaded?_addModule, Option.or_eq_none_iff] at absent
  exact absent.1

/-- The paths in memory under which no module is registered. -/
def unregistered (memory : Loader.Memory) (machine : Machine Host) : Finset String :=
  (memory.modules.map Prod.fst).toFinset.filter fun path => machine.loaded? path = none

/-- There are no more modules to load than there are in memory. -/
theorem card_unregistered_le (memory : Loader.Memory) (machine : Machine Host) :
    (machine.unregistered memory).card ≤ memory.modules.length := by
  refine (Finset.card_filter_le _ _).trans ((List.toFinset_card_le _).trans_eq ?_)
  exact List.length_map ..

/-- On a later machine there are no more modules to load. -/
theorem KeepsRegistered.card_le (kept : before.KeepsRegistered after) (memory : Loader.Memory) :
    (after.unregistered memory).card ≤ (before.unregistered memory).card :=
  Finset.card_le_card (Finset.monotone_filter_right _ fun path _ => kept path)

/-- With a module that is being loaded there is one less to load. -/
theorem card_unregistered_addModule_lt {path : String} {text : Loader.ModuleText}
    (member : (path, text) ∈ memory.modules) (absent : machine.loaded? path = none) :
    ((machine.addModule path).unregistered memory).card < (machine.unregistered memory).card := by
  have known : path ∈ (memory.modules.map Prod.fst).toFinset :=
    List.mem_toFinset.mpr (List.mem_map.mpr ⟨_, member, rfl⟩)
  refine Finset.card_lt_card ⟨?_, fun all => ?_⟩
  · exact Finset.monotone_filter_right _ fun other _ => keepsRegistered_addModule machine path other
  · have still := (Finset.mem_filter.mp (all (Finset.mem_filter.mpr ⟨known, absent⟩))).2
    rw [loaded?_addModule, if_pos rfl, Option.or_eq_none_iff] at still
    cases still.2

end CommandScript.Machine
