import CommandScript.Proofs.Machine.Rooting

/-!
# The functions that are passed around

A function that is bound to a name, or that the host keeps, is in the table of a module, if the host
makes up no functions. So its closure lies outside of functions, and the scope of its body is the
only one on its chain that was made for a body. That the host can be trusted is an assumption of
some results only: a machine is sound in what does not depend on it, and in the rest if it holds.
-/

namespace CommandScript.Machine

/-! ## Bindings -/

namespace Scopes

variable {scopes : Scopes Value} {good : Value → Prop}

/-- All values that scopes bind have a property. -/
def BindsOnly (good : Value → Prop) (scopes : Scopes Value) : Prop :=
  ∀ id scope, scopes.find? id = some scope → ∀ binding ∈ scope.bindings, good binding.2

/-- A new scope binds nothing. -/
theorem BindsOnly.add (binds : scopes.BindsOnly good) (parent : Option ScopeId) (function : Bool) :
    (scopes.add ⟨parent, [], function⟩).BindsOnly good := by
  intro id scope found binding member
  rw [find?_add] at found
  split at found
  · cases found
    cases member
  · exact binds id scope found binding member

theorem BindsOnly.assign (binds : scopes.BindsOnly good) (id : ScopeId) (name : Symbol)
    {value : Value} (fine : good value) : (scopes.assign id name value).BindsOnly good := by
  intro other scope found binding member
  rw [find?_assign] at found
  split at found
  · obtain ⟨before, there, rfl⟩ := Option.map_eq_some_iff.mp found
    rcases Bindings.mem_assign member with old | new
    · exact binds id before there binding old
    · exact new ▸ fine
  · exact binds other scope found binding member

/-- What a look-up finds is bound somewhere. -/
theorem BindsOnly.lookup (binds : scopes.BindsOnly good) {id : ScopeId} {name : Symbol}
    {value : Value} (found : scopes.lookup id name = some value) : good value := by
  obtain ⟨holder, scope, -, there, bound⟩ :=
    exists_of_lookup (fun _ _ _ _ => trivial) trivial found
  exact binds holder scope there _ bound

end Scopes

variable {Host : Type} {machine before after : Machine Host} {keeps : Keeps Host} {trusted : Prop}

/-! ## Closures -/

/-- A function that closes over the scope is in the table of a module. -/
def IsClosure (machine : Machine Host) (scope : ScopeId) : Prop :=
  ∃ id module, machine.module? id = some module ∧
    ∃ entry ∈ module.functions, entry.2.closure = scope

/-- The scopes among the nodes are closures of functions that modules hold. -/
def Knows (machine : Machine Host) (nodes : Set Node) : Prop :=
  ∀ scope, .scope scope ∈ nodes → machine.IsClosure scope

/-- What a function closes over stays so. -/
theorem IsClosure.extend {scope : ScopeId} (closure : before.IsClosure scope)
    (later : before.Extends after) : after.IsClosure scope := by
  obtain ⟨id, module, found, entry, member, closes⟩ := closure
  obtain ⟨held, there, -, -, more⟩ := later.modules found
  exact ⟨id, held, there, entry, more member, closes⟩

/-- What is known stays known. -/
theorem Knows.extend {nodes : Set Node} (known : before.Knows nodes)
    (later : before.Extends after) : after.Knows nodes :=
  fun scope member => (known scope member).extend later

theorem knows_empty : machine.Knows ∅ :=
  fun _ member => absurd member (Set.notMem_empty _)

/-- No function closes over a scope inside of a function. -/
theorem Rooted.outside_of_isClosure (rooted : machine.Rooted) {scope : ScopeId}
    (closure : machine.IsClosure scope) : machine.scopes.IsOutside scope := by
  obtain ⟨id, module, found, entry, member, rfl⟩ := closure
  exact (rooted.tables found entry member).outside

/-- A function that a module defines may be passed around. -/
theorem isClosure_of_function? {id : ModuleId} {name : Symbol} {function : Function}
    (found : machine.function? id name = some function) : machine.IsClosure function.closure := by
  obtain ⟨module, there, held⟩ := Option.bind_eq_some_iff.mp found
  exact ⟨id, module, there, (name, function), mem_of_lookup_eq_some held, rfl⟩

/-- A function that has just been defined is in the table of its module. -/
theorem isClosure_define {id : ModuleId} {module : Module}
    (found : machine.module? id = some module) (function : Function) :
    (machine.define id function).IsClosure function.closure := by
  refine ⟨id, { module with functions := module.functions ++ [(function.name, function)] }, ?_,
    (function.name, function), List.mem_append_right _ (List.mem_singleton_self _), rfl⟩
  rw [module?_define, found, Option.map_some, if_pos rfl]

/-! ## Sound machines -/

/-- The host makes up no functions, and none that is made up is bound anywhere. -/
structure Supplied (keeps : Keeps Host) (machine : Machine Host) : Prop where
  laws : HostLaws keeps machine
  ordered : machine.scopes.Ordered
  bound : machine.scopes.BindsOnly fun value => machine.Knows value.nodes
  kept : ∀ id, machine.Knows (keeps id machine.host)

/-- What holds on every machine that evaluation can reach: some of it in any case, the rest if the
host is trusted. -/
structure Sound (keeps : Keeps Host) (trusted : Prop) (machine : Machine Host) : Prop where
  rooted : machine.Rooted
  supplied : trusted → machine.Supplied keeps

/-- The value may be passed around, as far as the host is trusted. -/
def Admits (trusted : Prop) (machine : Machine Host) (value : Value) : Prop :=
  trusted → machine.Knows value.nodes

/-- A value stays admitted. -/
theorem Admits.extend {value : Value} (admitted : before.Admits trusted value)
    (later : before.Extends after) : after.Admits trusted value :=
  fun trust => (admitted trust).extend later

/-- A function is admitted if it closes over what one of a table closes over. -/
theorem admits_function {function : Function}
    (closure : trusted → machine.IsClosure function.closure) :
    machine.Admits trusted (.function function) := by
  rintro trust scope ⟨⟩
  exact closure trust

/-- A value that leads to no scope may be passed around. -/
theorem admits_of_nodes {value : Value} (plain : ∀ scope, .scope scope ∉ value.nodes) :
    machine.Admits trusted value :=
  fun _ scope member => absurd member (plain scope)

/-! ## Steps -/

namespace Sound

variable (sound : machine.Sound keeps trusted)
include sound

/-- Further scopes and bindings. -/
theorem withScopes {scopes : Scopes Value} (later : machine.scopes.Extends scopes)
    (grounded : scopes.Grounded)
    (supplied : trusted → machine.Supplied keeps →
      scopes.Ordered ∧ scopes.BindsOnly fun value => machine.Knows value.nodes) :
    Machine.Sound keeps trusted { machine with scopes := scopes } ∧
      machine.Extends { machine with scopes := scopes } := by
  have further : machine.Extends { machine with scopes := scopes } := .of_scopes rfl later
  refine ⟨⟨sound.rooted.withScopes rfl later grounded, fun trust => ?_⟩, further⟩
  have before := sound.supplied trust
  obtain ⟨ordered, bound⟩ := supplied trust before
  refine ⟨⟨before.laws.yields, before.laws.retains, before.laws.loads⟩, ordered, ?_, ?_⟩
  · exact fun id scope found binding member => (bound id scope found binding member).extend further
  · exact fun id => (before.kept id).extend further

theorem addBlock {parent : ScopeId} (made : parent < machine.scopes.next) :
    Machine.Sound keeps trusted { machine with scopes := machine.scopes.addBlock parent } ∧
      machine.Extends { machine with scopes := machine.scopes.addBlock parent } :=
  sound.withScopes (Scopes.extends_add ..) (sound.rooted.scopes.addBlock made)
    fun _ before => ⟨before.ordered.add made _, before.bound.add _ _⟩

theorem assign (id : ScopeId) (name : Symbol) {value : Value}
    (admitted : machine.Admits trusted value) :
    Machine.Sound keeps trusted { machine with scopes := machine.scopes.assign id name value } ∧
      machine.Extends { machine with scopes := machine.scopes.assign id name value } :=
  sound.withScopes (Scopes.extends_assign ..) (sound.rooted.scopes.assign id name value)
    fun trust before => ⟨before.ordered.assign id name value,
      before.bound.assign id name (admitted trust)⟩

theorem foldl_assign (id : ScopeId) {named : Bindings Value}
    (admitted : ∀ binding ∈ named, machine.Admits trusted binding.2) :
    let scopes := named.foldl (fun scopes binding => scopes.assign id binding.1 binding.2)
      machine.scopes
    Machine.Sound keeps trusted { machine with scopes := scopes } ∧
      machine.Extends { machine with scopes := scopes } := by
  induction named generalizing machine with
  | nil => exact ⟨sound, .refl machine⟩
  | cons binding rest ih =>
      rw [List.forall_mem_cons] at admitted
      obtain ⟨bound, later⟩ := sound.assign id binding.1 admitted.1
      obtain ⟨all, further⟩ := ih bound fun other member => (admitted.2 other member).extend later
      exact ⟨all, later.trans further⟩

/-- The scope of a function body, with its parameters. It lies inside a function, and it is known
for a body if the function was not made up. -/
theorem enterFunction {function : Function} {named : Bindings Value}
    (closes : trusted → machine.IsClosure function.closure)
    (admitted : ∀ binding ∈ named, machine.Admits trusted binding.2) :
    let entered : Machine Host := { machine with
      scopes := named.foldl
        (fun scopes binding => scopes.assign machine.scopes.next binding.1 binding.2)
        (machine.scopes.addFunction function.closure) }
    (entered.Sound keeps trusted ∧ machine.Extends entered) ∧
      entered.scopes.insideFunction machine.scopes.next = true ∧
        (trusted → entered.scopes.IsBody machine.scopes.next) := by
  have outside (trust : trusted) : machine.scopes.IsOutside function.closure :=
    sound.rooted.outside_of_isClosure (closes trust)
  obtain ⟨made, later⟩ := sound.withScopes (Scopes.extends_add ..)
    (sound.rooted.scopes.addFunction function.closure)
    fun trust before => ⟨before.ordered.add (outside trust).made _, before.bound.add _ _⟩
  have allowed := fun binding member => (admitted binding member).extend later
  obtain ⟨bound, further⟩ := made.foldl_assign machine.scopes.next allowed
  refine ⟨⟨bound, later.trans further⟩, ?_, fun trust => ?_⟩
  · have inside := further.scopes.insideFunction (Scopes.next_lt_next_add ..)
    exact inside.trans (Scopes.insideFunction_next_add ..)
  · exact (Scopes.isBody_addFunction (outside trust)).extend further.scopes

/-- Whatever is not a matter of scopes and modules. -/
theorem alter (scopes : after.scopes = machine.scopes) (modules : after.modules = machine.modules)
    (laws : trusted → HostLaws keeps machine → HostLaws keeps after)
    (kept : trusted → ∀ id, machine.Knows (keeps id after.host)) :
    after.Sound keeps trusted ∧ machine.Extends after := by
  have same : machine.scopes.Extends after.scopes := scopes ▸ .refl machine.scopes
  have later : machine.Extends after := .of_scopes modules same
  refine ⟨⟨sound.rooted.withScopes modules same (scopes ▸ sound.rooted.scopes), ?_⟩, later⟩
  intro trust
  have before := sound.supplied trust
  refine ⟨laws trust before.laws, scopes ▸ before.ordered, ?_, ?_⟩
  · rw [scopes]
    exact fun id scope found binding member =>
      (before.bound id scope found binding member).extend later
  · exact fun id => (kept trust id).extend later

/-- A path may be taken out of the registry. -/
theorem unregister (path : String) :
    (machine.unregister path).Sound keeps trusted ∧ machine.Extends (machine.unregister path) :=
  sound.alter rfl rfl (fun _ laws => ⟨laws.yields, laws.retains, laws.loads⟩)
    fun trust => (sound.supplied trust).kept

theorem onlyMailboxes (only : machine.OnlyMailboxes after) :
    after.Sound keeps trusted ∧ machine.Extends after := by
  obtain ⟨mailboxes, rfl⟩ := only
  exact sound.alter rfl rfl (fun _ laws => ⟨laws.yields, laws.retains, laws.loads⟩)
    fun trust => (sound.supplied trust).kept

/-- The host may keep what is known. -/
theorem withHost {host : Host} (kept : trusted → ∀ id, machine.Knows (keeps id host)) :
    Machine.Sound keeps trusted { machine with host := host } ∧
      machine.Extends { machine with host := host } :=
  sound.alter rfl rfl (fun _ laws => ⟨laws.yields, laws.retains, laws.loads⟩) kept

/-! ### Modules -/

/-- A function may be defined where its module belongs, outside of functions. -/
theorem define {id : ModuleId} {function : Function}
    (coheres : machine.Coheres function.closure id)
    (outside : machine.scopes.insideFunction function.closure = false)
    (path : function.module = machine.modulePath id) :
    (machine.define id function).Sound keeps trusted ∧
      machine.Extends (machine.define id function) := by
  have later := machine.extends_define id function
  refine ⟨⟨sound.rooted.define coheres outside path, fun trust => ?_⟩, later⟩
  have before := sound.supplied trust
  refine ⟨⟨before.laws.yields, before.laws.retains, before.laws.loads⟩, before.ordered, ?_, ?_⟩
  · exact fun id scope found binding member =>
      (before.bound id scope found binding member).extend later
  · exact fun id => (before.kept id).extend later

/-- A module may be added. -/
theorem addModule (path : String) :
    (machine.addModule path).Sound keeps trusted ∧ machine.Extends (machine.addModule path) := by
  have later := machine.extends_addModule path
  refine ⟨⟨sound.rooted.addModule path, fun trust => ?_⟩, later⟩
  have before := sound.supplied trust
  refine ⟨⟨before.laws.yields, before.laws.retains, before.laws.loads⟩, ?_, ?_, ?_⟩
  · exact before.ordered.add sound.rooted.scopes.root.made _
  · exact fun id scope found binding member =>
      (before.bound.add (some rootScope) _ id scope found binding member).extend later
  · exact fun id => (before.kept id).extend later

/-! ### Host processes and the loader -/

section Process

variable {id : ProcessId} {values : List Value}
  (admitted : ∀ value ∈ values, machine.Admits trusted value)
include admitted

/-- A process that is trusted gets at closures of functions that modules hold, and at no others. -/
theorem knows_supply (trust : trusted) :
    machine.Knows (keeps id machine.host ∪ nodesOf values) := by
  rintro scope (kept | ⟨value, member, leads⟩)
  · exact (sound.supplied trust).kept id scope kept
  · exact admitted value member trust scope leads

variable {process : HostProcess Host} (found : machine.processes[id]? = some process)
include found

/-- A process yields an admitted value for admitted arguments. -/
theorem process_yields (counts : Value.MailboxCounts) {value : Value}
    (yielded : (process.run ⟨values, counts⟩ machine.host).1 = .ok value) :
    machine.Admits trusted value := by
  intro trust scope leads
  have laws := (sound.supplied trust).laws
  have yields := laws.yields found ⟨values, counts⟩ machine.host value yielded
  exact sound.knows_supply admitted trust scope (yields leads)

/-- The host may be what a process has made of it. -/
theorem afterProcess (counts : Value.MailboxCounts) :
    let host := (process.run ⟨values, counts⟩ machine.host).2
    Machine.Sound keeps trusted { machine with host := host } ∧
      machine.Extends { machine with host := host } := by
  refine sound.withHost fun trust other scope member => ?_
  have retains := (sound.supplied trust).laws.retains found ⟨values, counts⟩ machine.host other
  rcases retains member with old | new
  · exact (sound.supplied trust).kept other scope old
  · exact sound.knows_supply admitted trust scope new

end Process

/-- The host may be what a load has made of it. -/
theorem afterLoad {load : Loader Host} (present : machine.loader = some load) (path : String) :
    let host := (load path machine.host).2
    Machine.Sound keeps trusted { machine with host := host } ∧
      machine.Extends { machine with host := host } := by
  refine sound.withHost fun trust id scope member => ?_
  have loads := (sound.supplied trust).laws.loads load (present ▸ rfl) path machine.host id
  exact (sound.supplied trust).kept id scope (loads member)

end Sound

/-- The first scopes bind nothing but the default channels. -/
theorem bindsOnly_firstScopes :
    firstScopes.BindsOnly fun value => machine.Knows value.nodes := by
  have none : (Scopes.empty : Scopes Value).BindsOnly fun value => machine.Knows value.nodes := by
    intro id scope found
    cases found
  have channel (id : MailboxId) : machine.Knows (Value.mailbox id).nodes := knows_empty
  have out := (none.add Option.none false).assign rootScope Keyword.stdout (channel stdoutId)
  have err := out.assign rootScope Keyword.stderr (channel stderrId)
  exact (err.assign rootScope Keyword.stdin (channel stdinId)).add (some rootScope) false

/-- A fresh machine is sound, if a trusted host has made up no functions before. -/
theorem sound_new {settings : Settings} {loader : Option (Loader Host)} {host : Host}
    (laws : trusted → HostLaws keeps (.new settings loader host))
    (kept : trusted → ∀ id scope, .scope scope ∉ keeps id host) :
    (Machine.new settings loader host).Sound keeps trusted := by
  refine ⟨rooted_new settings loader host, fun trust => ⟨laws trust, ?_, ?_, ?_⟩⟩
  · intro id parent step
    have made : id < firstScopes.next := Scopes.lt_next_of_parent? step
    match id, made with
    | 0, _ => cases step
    | 1, _ =>
      cases step
      decide
  · exact bindsOnly_firstScopes
  · exact fun id scope member => absurd member (kept trust id scope)

end CommandScript.Machine
