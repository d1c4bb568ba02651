import CommandScript.Proofs.Machine.Requests

/-!
# The tables of modules

A function knows its module by the path only, and the module is found again by that path. On every
machine that evaluation can reach the two agree: the table that holds a function belongs to a module
of the function's path, and the path is the one under which the module is found, if it is found at
all. A module whose import has failed is not found any more, while its functions may live on as
values.
-/

namespace CommandScript.Machine

variable {Host : Type}

/-! ## What does not touch modules -/

/-- The modules, their registry and the numbering of functions are as they were. -/
structure SameModules (before after : Machine Host) : Prop where
  modules : after.modules = before.modules
  registry : after.registry = before.registry
  nextFunction : after.nextFunction = before.nextFunction

theorem SameModules.refl (machine : Machine Host) : machine.SameModules machine :=
  ⟨rfl, rfl, rfl⟩

theorem SameModules.symm {before after : Machine Host} (same : before.SameModules after) :
    after.SameModules before :=
  ⟨same.modules.symm, same.registry.symm, same.nextFunction.symm⟩

theorem SameModules.trans {before middle after : Machine Host} (first : before.SameModules middle)
    (second : middle.SameModules after) : before.SameModules after where
  modules := second.modules.trans first.modules
  registry := second.registry.trans first.registry
  nextFunction := second.nextFunction.trans first.nextFunction

/-- A change of mailboxes leaves the modules alone. -/
theorem OnlyMailboxes.sameModules {before after : Machine Host}
    (only : before.OnlyMailboxes after) : before.SameModules after := by
  obtain ⟨mailboxes, rfl⟩ := only
  exact ⟨rfl, rfl, rfl⟩

/-! ## What modules are looked up for -/

/-- The path of a module, if there is such a module. -/
def path? (machine : Machine Host) (id : ModuleId) : Option String :=
  (machine.module? id).map Module.path

/-- A module is found under some path. Every module is, from the moment it is made until its import
fails. -/
def IsLoaded (machine : Machine Host) (id : ModuleId) : Prop :=
  ∃ path, machine.loaded? path = some id

/-- The table of a module holds a function. -/
def Defines (machine : Machine Host) (id : ModuleId) (function : Function) : Prop :=
  ∃ name, machine.function? id name = some function

section Lookups

variable {machine : Machine Host}

/-- A module that is there has its path. -/
theorem modulePath_of_path? {id : ModuleId} {path : String} (found : machine.path? id = some path) :
    machine.modulePath id = path := by
  rw [path?] at found
  rw [modulePath]
  cases module : machine.module? id with
  | none => simp [module] at found
  | some held => simpa [module] using found

/-- A module that has a function has a path. -/
theorem Defines.exists_path {id : ModuleId} {function : Function}
    (defines : machine.Defines id function) : ∃ path, machine.path? id = some path := by
  obtain ⟨name, found⟩ := defines
  rw [function?] at found
  cases module : machine.module? id with
  | none => simp [module] at found
  | some held => exact ⟨held.path, by simp [path?, module]⟩

/-- A definition changes one module. -/
theorem module?_define (function : Function) (id other : ModuleId) :
    (machine.define id function).module? other = (machine.module? other).map fun module =>
      if other = id then
        { module with functions := module.functions ++ [(function.name, function)] }
      else module := by
  rw [module?, module?, define, Array.getElem?_modify]
  by_cases same : id = other
  · simp [same]
  · simp [same, Ne.symm same]

theorem path?_define (function : Function) (id other : ModuleId) :
    (machine.define id function).path? other = machine.path? other := by
  rw [path?, path?, module?_define, Option.map_map]
  congr 1
  funext module
  simp only [Function.comp_apply]
  split <;> rfl

/-- A table holds what it held before, and possibly the function that has just been defined. -/
theorem Defines.of_define {function other : Function} {id target : ModuleId}
    (defines : (machine.define id function).Defines target other) :
    machine.Defines target other ∨ target = id ∧ other = function := by
  obtain ⟨name, found⟩ := defines
  rw [function?, module?_define] at found
  cases module : machine.module? target with
  | none => simp [module] at found
  | some held =>
      by_cases same : target = id
      · rw [module, Option.map_some, Option.bind_some, if_pos same, List.lookup_append,
          Option.or_eq_some_iff] at found
        rcases found with old | ⟨_, new⟩
        · exact .inl ⟨name, by rw [function?, module]; exact old⟩
        · rw [List.lookup_cons] at new
          split at new
          · exact .inr ⟨same, (Option.some.inj new).symm⟩
          · exact absurd new (by simp)
      · rw [module, Option.map_some, Option.bind_some, if_neg same] at found
        exact .inl ⟨name, by rw [function?, module]; exact found⟩

/-- A new module gets the next number and an empty table. -/
theorem module?_addModule (path : String) (id : ModuleId) :
    (machine.addModule path).module? id =
      if id = machine.modules.size then some ⟨path, machine.scopes.next, []⟩
      else machine.module? id := by
  rw [module?, module?, addModule, Array.getElem?_push]

/-- A new module defines nothing. -/
theorem Defines.of_addModule {path : String} {id : ModuleId} {function : Function}
    (defines : (machine.addModule path).Defines id function) : machine.Defines id function := by
  obtain ⟨name, found⟩ := defines
  rw [function?, module?_addModule] at found
  split at found
  · simp at found
  · exact ⟨name, found⟩

/-- A further module leaves the paths of those that are there. -/
theorem path?_addModule {path held : String} {id : ModuleId}
    (found : machine.path? id = some held) :
    (machine.addModule path).path? id = some held := by
  have there : id ≠ machine.modules.size := by
    rintro rfl
    simp [path?, module?] at found
  rw [path?, module?_addModule, if_neg there]
  exact found

/-- A new module is loaded under its path, unless another is already. -/
theorem loaded?_addModule (path other : String) :
    (machine.addModule path).loaded? other =
      (machine.loaded? other).or (if other = path then some machine.modules.size else none) := by
  rw [loaded?, loaded?, addModule, List.lookup_append, List.lookup_cons]
  congr 1
  by_cases same : other = path
  · simp [same]
  · simp [same, beq_false_of_ne same]

/-- The entries that are left are found as before. -/
theorem lookup_filter_ne {V : Type} (removed key : String) (entries : List (String × V)) :
    (entries.filter fun entry => entry.1 ≠ removed).lookup key =
      if key = removed then none else entries.lookup key := by
  induction entries with
  | nil => simp
  | cons entry rest ih =>
      obtain ⟨other, value⟩ := entry
      rw [List.filter_cons, List.lookup_cons]
      by_cases gone : other = removed
      · rw [if_neg (by simpa using gone), ih]
        by_cases same : key = removed
        · rw [if_pos same, if_pos same]
        · rw [if_neg same, if_neg same, beq_false_of_ne (gone ▸ same)]
      · rw [if_pos (by simpa using gone), List.lookup_cons, ih]
        by_cases same : key = other
        · simp [same, gone]
        · rw [beq_false_of_ne same]

/-- Only the removed path finds nothing any more. -/
theorem loaded?_unregister (path other : String) :
    (machine.unregister path).loaded? other =
      if other = path then none else machine.loaded? other :=
  lookup_filter_ne path other machine.registry

end Lookups

/-! ## Coherence -/

/-- The paths, by which functions know their modules and modules are found, agree with the tables,
and no function is in two tables. -/
structure Coherent (machine : Machine Host) : Prop where
  loadedPath : ∀ path id, machine.loaded? path = some id → machine.path? id = some path
  definedPath : ∀ id function, machine.Defines id function →
    machine.path? id = some function.module
  numbered : ∀ id function, machine.Defines id function → function.id < machine.nextFunction
  apart : ∀ first second function, machine.Defines first function →
    machine.Defines second function → first = second

/-- Only modules, the registry and the numbering of functions matter. -/
theorem Coherent.of_sameModules {before after : Machine Host} (coherent : before.Coherent)
    (same : before.SameModules after) : after.Coherent := by
  have loaded (path : String) : after.loaded? path = before.loaded? path := by
    rw [loaded?, loaded?, same.registry]
  have module (id : ModuleId) : after.module? id = before.module? id := by
    rw [module?, module?, same.modules]
  have path (id : ModuleId) : after.path? id = before.path? id := by
    rw [path?, path?, module]
  have defines (id : ModuleId) (function : Function) :
      after.Defines id function → before.Defines id function := by
    rintro ⟨name, found⟩
    refine ⟨name, ?_⟩
    rw [function?, module] at found
    exact found
  refine ⟨?_, ?_, ?_, ?_⟩
  · intro place id found
    rw [path]
    exact coherent.loadedPath place id ((loaded place).symm.trans found)
  · intro id function held
    rw [path]
    exact coherent.definedPath id function (defines id function held)
  · intro id function held
    rw [same.nextFunction]
    exact coherent.numbered id function (defines id function held)
  · intro first second function one other
    exact coherent.apart first second function (defines _ _ one) (defines _ _ other)

/-- On a fresh machine only the main module is loaded. -/
theorem coherent_new (settings : Settings) (loader : Option (Loader Host)) (host : Host) :
    (Machine.new settings loader host).Coherent := by
  have empty (id : ModuleId) (function : Function) :
      ¬(Machine.new settings loader host).Defines id function := by
    rintro ⟨name, found⟩
    rw [function?, module?] at found
    cases id with
    | zero => simp [Machine.new] at found
    | succ id => simp [Machine.new] at found
  refine ⟨?_, ?_, ?_, ?_⟩
  · intro path id found
    rw [loaded?, Machine.new, List.lookup_cons] at found
    split at found
    · rename_i same
      cases found
      rw [beq_iff_eq] at same
      rw [same]
      rfl
    · exact absurd found (by simp)
  · exact fun id function held => absurd held (empty id function)
  · exact fun id function held => absurd held (empty id function)
  · exact fun first second function held => absurd held (empty first function)

/-- A function defined under the path of its module, with the next number, is in no other table. -/
theorem Coherent.define {machine : Machine Host} (coherent : machine.Coherent) {id : ModuleId}
    {function : Function} (path : function.module = machine.modulePath id)
    (number : function.id = machine.nextFunction) : (machine.define id function).Coherent := by
  have fresh (target : ModuleId) (held : machine.Defines target function) : False :=
    absurd (coherent.numbered target function held) (by omega)
  refine ⟨?_, ?_, ?_, ?_⟩
  · intro place target found
    rw [path?_define]
    exact coherent.loadedPath place target found
  · intro target other held
    rw [path?_define]
    rcases held.of_define with old | ⟨rfl, rfl⟩
    · exact coherent.definedPath target other old
    · obtain ⟨place, found⟩ := held.exists_path
      rw [path?_define] at found
      rw [found, path, modulePath_of_path? found]
  · intro target other held
    change other.id < machine.nextFunction + 1
    rcases held.of_define with old | ⟨-, rfl⟩
    · exact Nat.lt_succ_of_lt (coherent.numbered target other old)
    · omega
  · intro first second other one two
    rcases one.of_define with old | ⟨rfl, rfl⟩
    · rcases two.of_define with also | ⟨rfl, rfl⟩
      · exact coherent.apart first second other old also
      · exact (fresh first old).elim
    · rcases two.of_define with also | ⟨rfl, -⟩
      · exact (fresh second also).elim
      · rfl

/-- A new module leaves paths and tables in agreement. -/
theorem Coherent.addModule {machine : Machine Host} (coherent : machine.Coherent) (path : String) :
    (machine.addModule path).Coherent := by
  refine ⟨?_, ?_, ?_, ?_⟩
  · intro other id found
    rw [loaded?_addModule, Option.or_eq_some_iff] at found
    rcases found with old | ⟨-, new⟩
    · exact path?_addModule (coherent.loadedPath other id old)
    · split at new
      · rename_i same
        cases new
        rw [path?, module?_addModule, if_pos rfl, same]
        rfl
      · exact absurd new (by simp)
  · intro id function held
    exact path?_addModule (coherent.definedPath id function held.of_addModule)
  · exact fun id function held => coherent.numbered id function held.of_addModule
  · exact fun first second function one two =>
      coherent.apart first second function one.of_addModule two.of_addModule

/-- A module that is no longer found keeps its table. -/
theorem Coherent.unregister {machine : Machine Host} (coherent : machine.Coherent) (path : String) :
    (machine.unregister path).Coherent := by
  refine ⟨?_, coherent.definedPath, coherent.numbered, coherent.apart⟩
  intro other id found
  rw [loaded?_unregister] at found
  split at found
  · exact absurd found (by simp)
  · exact coherent.loadedPath other id found

/-! ## The module that a function body is run in -/

/-- Which module the body of a function runs in, given the one whose table holds the function. No
other table does, and the body runs in that very module exactly if it is still loaded, or if the
call fell back on it while no other module was loaded from its path. -/
structure OwnedBy (machine : Machine Host) (function : Function) (fallback owner home : ModuleId) :
    Prop where
  only : ∀ other, machine.Defines other function → other = home
  passed : owner = home ↔
    machine.IsLoaded home ∨ machine.loaded? function.module = none ∧ fallback = home

/-- The module that a body runs in is as it should be, whichever table holds the function. -/
def OwnerKept (machine : Machine Host) (function : Function) (fallback owner : ModuleId) : Prop :=
  ∀ home, machine.Defines home function → machine.OwnedBy function fallback owner home

/-- On a coherent machine the path that a function knows leads to the module that holds it. -/
theorem Coherent.ownerKept {machine : Machine Host} (coherent : machine.Coherent)
    (function : Function) (fallback : ModuleId) :
    machine.OwnerKept function fallback ((machine.loaded? function.module).getD fallback) := by
  intro home defines
  refine ⟨fun other also => coherent.apart other home function also defines, ?_, ?_⟩
  · intro same
    cases found : machine.loaded? function.module with
    | none => exact .inr ⟨rfl, by simpa [found] using same⟩
    | some owner =>
        have owned : owner = home := by simpa [found] using same
        exact .inl ⟨function.module, owned ▸ found⟩
  · rintro (⟨path, loaded⟩ | ⟨absent, same⟩)
    · -- the path that finds the module is the one that the function knows
      have paths := (coherent.loadedPath path home loaded).symm.trans
        (coherent.definedPath home function defines)
      rw [← Option.some.inj paths, loaded]
      rfl
    · rw [absent]
      exact same

end CommandScript.Machine
