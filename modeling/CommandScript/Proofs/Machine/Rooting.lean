import CommandScript.Proofs.Machine.Lineage
import CommandScript.Proofs.Machine.Tables

/-!
# Functions and the modules that hold them

On every machine that evaluation can reach, a function in the table of a module has been defined
below the top scope of that module, and outside of functions. Where a function is called, its
closure therefore lies outside of functions too, unless the host has made the function up.
-/

namespace CommandScript.Machine

variable {Host : Type} {machine before middle after : Machine Host} {keeps : Keeps Host}
  {trusted : Prop}

/-! ## Growth -/

/-- Scopes have been made, modules have been added and functions have been defined. What there was
is still there. -/
structure Extends (before after : Machine Host) : Prop where
  scopes : before.scopes.Extends after.scopes
  modules : ∀ {id module}, before.module? id = some module →
    ∃ later, after.module? id = some later ∧ later.path = module.path ∧
      later.scope = module.scope ∧ module.functions ⊆ later.functions

/-- A machine with the same modules extends another if its scopes do. -/
theorem Extends.of_scopes (modules : after.modules = before.modules)
    (scopes : before.scopes.Extends after.scopes) : before.Extends after where
  scopes := scopes
  modules {id module} found := by
    refine ⟨module, ?_, rfl, rfl, fun _ member => member⟩
    rw [module?] at found
    rw [module?, modules, found]

theorem Extends.refl (machine : Machine Host) : machine.Extends machine :=
  .of_scopes rfl (.refl machine.scopes)

theorem Extends.trans (first : before.Extends middle) (second : middle.Extends after) :
    before.Extends after where
  scopes := first.scopes.trans second.scopes
  modules found := by
    obtain ⟨held, there, path, scope, functions⟩ := first.modules found
    obtain ⟨later, reached, samePath, sameScope, more⟩ := second.modules there
    exact ⟨later, reached, samePath.trans path, sameScope.trans scope,
      List.Subset.trans functions more⟩

/-- A definition changes the functions of a module only. -/
theorem extends_define (machine : Machine Host) (id : ModuleId) (function : Function) :
    machine.Extends (machine.define id function) where
  scopes := .refl machine.scopes
  modules {other module} found := by
    rw [module?_define, found]
    refine ⟨_, rfl, ?_⟩
    split
    · exact ⟨rfl, rfl, List.subset_append_left _ _⟩
    · exact ⟨rfl, rfl, fun _ member => member⟩

/-- A new module leaves the others as they are. -/
theorem extends_addModule (machine : Machine Host) (path : String) :
    machine.Extends (machine.addModule path) where
  scopes := Scopes.extends_add ..
  modules {id module} found := by
    refine ⟨module, ?_, rfl, rfl, fun _ member => member⟩
    have old : id ≠ machine.modules.size := Nat.ne_of_lt (Array.getElem?_eq_some_iff.mp found).1
    rw [module?_addModule, if_neg old, found]

/-! ## Where functions are defined -/

/-- An entry of the table of a module: the function has that name and the path of the module, and
its closure lies below the top scope of the module, but not inside a function. -/
structure EntryRooted (scopes : Scopes Value) (home : Module) (entry : Symbol × Function) :
    Prop where
  name : entry.2.name = entry.1
  module : entry.2.module = home.path
  outside : scopes.IsOutside entry.2.closure
  top : scopes.Chain entry.2.closure home.scope

/-- The top scopes of modules are right below the root, and the functions of a module have been
defined below its top scope. -/
structure Rooted (machine : Machine Host) : Prop where
  scopes : machine.scopes.Grounded
  main : ∃ module, machine.module? mainModule = some module
  tops : ∀ {id module}, machine.module? id = some module →
    machine.scopes.IsOutside module.scope ∧
      machine.scopes.parent? module.scope = some rootScope
  tables : ∀ {id module}, machine.module? id = some module → ∀ entry ∈ module.functions,
    EntryRooted machine.scopes module entry

/-- A script of a module may run in a scope: it exists and lies inside a function, or below the top
scope of the module. -/
structure Coheres (machine : Machine Host) (scope : ScopeId) (id : ModuleId) : Prop where
  made : scope < machine.scopes.next
  home : machine.scopes.insideFunction scope = false →
    ∃ module, machine.module? id = some module ∧ machine.scopes.Chain scope module.scope

section Later

variable (later : before.Extends after)
include later

/-- An entry stays rooted where its module keeps its path and its scope. -/
theorem EntryRooted.extend {home held : Module} {entry : Symbol × Function}
    (rooted : EntryRooted before.scopes home entry) (path : held.path = home.path)
    (scope : held.scope = home.scope) : EntryRooted after.scopes held entry where
  name := rooted.name
  module := rooted.module.trans path.symm
  outside := rooted.outside.extend later.scopes
  top := scope ▸ rooted.top.extend later.scopes

/-- A scope goes on cohering with a module. -/
theorem Coheres.extend {scope : ScopeId} {id : ModuleId} (coheres : before.Coheres scope id) :
    after.Coheres scope id where
  made := coheres.made.trans_le later.scopes.made
  home outside := by
    rw [later.scopes.insideFunction coheres.made] at outside
    obtain ⟨module, found, chain⟩ := coheres.home outside
    obtain ⟨held, there, -, top, -⟩ := later.modules found
    exact ⟨held, there, top ▸ chain.extend later.scopes⟩

end Later

/-- The main module stays. -/
theorem Extends.main (later : before.Extends after)
    (main : ∃ module, before.module? mainModule = some module) :
    ∃ module, after.module? mainModule = some module := by
  obtain ⟨module, found⟩ := main
  obtain ⟨held, there, -⟩ := later.modules found
  exact ⟨held, there⟩

/-- A block of a scope coheres with the module that the scope coheres with. -/
theorem Coheres.addBlock {scope : ScopeId} {id : ModuleId} (coheres : machine.Coheres scope id) :
    Machine.Coheres { machine with scopes := machine.scopes.addBlock scope } machine.scopes.next
      id where
  made := Scopes.next_lt_next_add ..
  home outside := by
    have above := (Scopes.insideFunction_next_add ..).symm.trans outside
    obtain ⟨module, found, chain⟩ := coheres.home above
    exact ⟨module, found, .up (Scopes.parent?_next_add ..) (chain.extend (Scopes.extends_add ..))⟩

/-- Inside a function the module does not matter. -/
theorem coheres_of_inside {scope : ScopeId} (inside : machine.scopes.insideFunction scope = true)
    (id : ModuleId) : machine.Coheres scope id where
  made := Scopes.lt_next_of_insideFunction inside
  home outside := by
    rw [inside] at outside
    cases outside

namespace Rooted

/-- Modules and scopes are all that matters. -/
theorem withScopes (rooted : machine.Rooted) (modules : after.modules = machine.modules)
    (later : machine.scopes.Extends after.scopes) (grounded : after.scopes.Grounded) :
    after.Rooted := by
  have found {id : ModuleId} : after.module? id = machine.module? id := by
    rw [module?, module?, modules]
  refine ⟨grounded, (Extends.of_scopes modules later).main rooted.main, ?_, ?_⟩
  · intro id module there
    obtain ⟨outside, step⟩ := rooted.tops (found.symm.trans there)
    exact ⟨outside.extend later, Scopes.parent?_extend later step⟩
  · intro id module there entry member
    exact (rooted.tables (found.symm.trans there) entry member).extend
      (.of_scopes modules later) rfl rfl

/-- A function that is defined where a script of the module may run is rooted in the module. -/
theorem define (rooted : machine.Rooted) {id : ModuleId} {function : Function}
    (coheres : machine.Coheres function.closure id)
    (outside : machine.scopes.insideFunction function.closure = false)
    (path : function.module = machine.modulePath id) : (machine.define id function).Rooted := by
  have later := machine.extends_define id function
  refine ⟨rooted.scopes, later.main rooted.main, ?_, ?_⟩
  · intro other module found
    rw [module?_define] at found
    obtain ⟨held, there, rfl⟩ := Option.map_eq_some_iff.mp found
    have top := rooted.tops there
    split <;> exact top
  · intro other module found entry member
    rw [module?_define] at found
    obtain ⟨held, there, rfl⟩ := Option.map_eq_some_iff.mp found
    split at member
    · rename_i same
      subst same
      rw [if_pos rfl]
      rcases List.mem_append.mp member with old | new
      · exact (rooted.tables there entry old).extend later rfl rfl
      · cases List.mem_singleton.mp new
        obtain ⟨home, known, chain⟩ := coheres.home outside
        cases there.symm.trans known
        refine ⟨rfl, ?_, ⟨coheres.made, outside⟩, chain⟩
        rw [path, modulePath, there]
    · rename_i apart
      rw [if_neg apart]
      exact (rooted.tables there entry member).extend later rfl rfl

/-- A new module starts with an empty table right below the root. -/
theorem addModule (rooted : machine.Rooted) (path : String) : (machine.addModule path).Rooted := by
  have later := machine.extends_addModule path
  refine ⟨rooted.scopes.addBlock rooted.scopes.root.made, later.main rooted.main, ?_, ?_⟩
  · intro id module found
    rw [module?_addModule] at found
    split at found
    · cases found
      refine ⟨⟨Scopes.next_lt_next_add .., ?_⟩, Scopes.parent?_next_add ..⟩
      exact (Scopes.insideFunction_next_add ..).trans rooted.scopes.root.outside
    · obtain ⟨outside, step⟩ := rooted.tops found
      exact ⟨outside.extend later.scopes, Scopes.parent?_extend later.scopes step⟩
  · intro id module found entry member
    rw [module?_addModule] at found
    split at found
    · cases found
      cases member
    · exact (rooted.tables found entry member).extend later rfl rfl

/-- A script of the main module may run in its top scope. -/
theorem coheres_main (rooted : machine.Rooted) :
    machine.Coheres (machine.moduleScope mainModule) mainModule := by
  obtain ⟨module, found⟩ := rooted.main
  have top : machine.moduleScope mainModule = module.scope := by rw [moduleScope, found]
  rw [top]
  exact ⟨(rooted.tops found).1.made, fun _ => ⟨module, found, .here _⟩⟩

/-- The script of a further module may run in its top scope. -/
theorem coheres_addModule (rooted : machine.Rooted) (path : String) :
    (machine.addModule path).Coheres machine.scopes.next machine.modules.size := by
  have found : (machine.addModule path).module? machine.modules.size =
      some ⟨path, machine.scopes.next, []⟩ := by rw [module?_addModule, if_pos rfl]
  obtain ⟨outside, -⟩ := (rooted.addModule path).tops found
  exact ⟨outside.made, fun _ => ⟨_, found, .here _⟩⟩

end Rooted

/-- The root and the top scope of the main module. -/
theorem grounded_firstScopes : firstScopes.Grounded := by
  have outside {id : ScopeId} (made : id < firstScopes.next) : firstScopes.IsOutside id := by
    refine ⟨made, ?_⟩
    match id, made with
    | 0, _ => rfl
    | 1, _ => rfl
  refine ⟨outside (by decide), rfl, ?_, ?_⟩
  · intro id made none
    match id, made with
    | 0, _ => rfl
    | 1, _ => cases none
  · intro id parent below step
    match id, below.made with
    | 0, _ => cases step
    | 1, _ =>
      cases step
      exact outside (by decide)

/-- A fresh machine has no functions yet. -/
theorem rooted_new (settings : Settings) (loader : Option (Loader Host)) (host : Host) :
    (Machine.new settings loader host).Rooted := by
  have main {id : ModuleId} {module : Module}
      (found : (Machine.new settings loader host).module? id = some module) :
      module = ⟨mainPath, 1, []⟩ :=
    Array.mem_singleton.mp (Array.mem_of_getElem? found)
  refine ⟨grounded_firstScopes, ⟨_, rfl⟩, ?_, ?_⟩
  · intro id module found
    rw [main found]
    exact ⟨⟨(by decide : 1 < firstScopes.next), rfl⟩, rfl⟩
  · intro id module found entry member
    rw [main found] at member
    cases member

end CommandScript.Machine
