import CommandScript.Proofs.Machine.Tables
import Mathlib.Data.List.Nodup

/-!
# The growth of the table of modules

Behind the modules that are registered others are registered, each under a path of its own, and
behind the functions of a module others are defined. Nothing that is there goes away, is put
elsewhere or is replaced. A module is registered before its script runs and taken out again if that
fails: over the whole of it the table has grown by what the script itself has left behind.
-/

namespace CommandScript.Machine

variable {Host : Type}

/-- The registered modules and the tables of functions have grown: by these modules, registered in
this order behind the others. -/
structure Grown (before : Machine Host) (loads : List (String × ModuleId)) (after : Machine Host) :
    Prop where
  registry : after.registry = before.registry ++ loads
  fresh : ∀ path ∈ loads.map Prod.fst, before.loaded? path = none
  distinct : (loads.map Prod.fst).Nodup
  tables : ∀ {id : ModuleId} {name : Symbol} {function : Function},
    before.function? id name = some function → after.function? id name = some function

/-- No module is found under the path exactly if none is registered under it. -/
theorem loaded?_eq_none_iff {machine : Machine Host} {path : String} :
    machine.loaded? path = none ↔ path ∉ machine.registry.map Prod.fst := by
  rw [Machine.loaded?, List.lookup_eq_none_iff]
  constructor
  · intro different member
    obtain ⟨entry, present, rfl⟩ := List.mem_map.mp member
    exact bne_iff_ne.mp (different entry present) rfl
  · intro absent entry present
    rw [bne_iff_ne]
    rintro rfl
    exact absent (List.mem_map_of_mem present)

namespace Grown

variable {before middle after : Machine Host} {loads earlier later : List (String × ModuleId)}

/-- What is registered stays registered. -/
theorem loaded? (grown : before.Grown loads after) {path : String} {id : ModuleId}
    (found : before.loaded? path = some id) : after.loaded? path = some id := by
  rw [Machine.loaded?] at found
  rw [Machine.loaded?, grown.registry, List.lookup_append, found, Option.some_or]

/-- Where the modules stay the same, the table has grown by nothing. -/
theorem of_sameModules (same : before.SameModules after) : before.Grown [] after where
  registry := by rw [same.registry, List.append_nil]
  fresh := nofun
  distinct := List.nodup_nil
  tables found := by
    rw [function?, module?] at found
    rw [function?, module?, same.modules]
    exact found

/-- The table grows by one stretch after the other. -/
theorem trans (first : before.Grown earlier middle) (second : middle.Grown later after) :
    before.Grown (earlier ++ later) after where
  registry := by rw [second.registry, first.registry, List.append_assoc]
  fresh path member := by
    rw [List.map_append] at member
    rcases List.mem_append.mp member with early | late
    · exact first.fresh path early
    · cases known : before.loaded? path with
      | none => rfl
      | some id => rw [← second.fresh path late, first.loaded? known]
  distinct := by
    rw [List.map_append, List.nodup_append]
    refine ⟨first.distinct, second.distinct, ?_⟩
    rintro path early other late rfl
    -- a path that is new to the later machine was not registered by then
    have absent := second.fresh path late
    rw [loaded?_eq_none_iff, first.registry, List.map_append] at absent
    exact absent (List.mem_append_right _ early)
  tables found := second.tables (first.tables found)

/-- A function is defined behind those of its module. -/
theorem of_define (machine : Machine Host) (id : ModuleId) (function : Function) :
    machine.Grown [] (machine.define id function) where
  registry := (List.append_nil _).symm
  fresh := nofun
  distinct := List.nodup_nil
  tables {other name held} found := by
    obtain ⟨module, there, known⟩ := Option.bind_eq_some_iff.mp found
    rw [function?, module?_define, there, Option.map_some, Option.bind_some]
    split
    · rw [List.lookup_append, known, Option.some_or]
    · exact known

/-- A machine with a further module holds the functions of the others. -/
theorem function?_addModule (machine : Machine Host) (path : String) {id : ModuleId}
    {name : Symbol} {function : Function} (found : machine.function? id name = some function) :
    (machine.addModule path).function? id name = some function := by
  obtain ⟨module, there, known⟩ := Option.bind_eq_some_iff.mp found
  have old : id ≠ machine.modules.size := by
    rintro rfl
    rw [module?, Array.getElem?_size] at there
    cases there
  rw [function?, module?_addModule, if_neg old, there]
  exact known

/-- The table of a machine with a further module that stays has grown by that module first. -/
theorem of_addModule {path : String} (absent : before.loaded? path = none)
    (inside : (before.addModule path).Grown loads after) :
    before.Grown ((path, before.modules.size) :: loads) after where
  registry := by
    rw [inside.registry, addModule, List.append_assoc]
    rfl
  fresh other member := by
    rcases List.mem_cons.mp member with rfl | new
    · exact absent
    · have unknown := inside.fresh other new
      rw [loaded?_addModule, Option.or_eq_none_iff] at unknown
      exact unknown.1
  distinct := by
    rw [List.map_cons, List.nodup_cons]
    refine ⟨fun member => ?_, inside.distinct⟩
    have unknown := inside.fresh path member
    rw [loaded?_addModule, if_pos rfl, Option.or_eq_none_iff] at unknown
    cases unknown.2
  tables found := inside.tables (function?_addModule before path found)

/-- The table of a machine with a further module that is taken out again has grown by the others
only. -/
theorem of_unregister {path : String} (absent : before.loaded? path = none)
    (inside : (before.addModule path).Grown loads after) :
    before.Grown loads (after.unregister path) := by
  have grown := of_addModule absent inside
  have others : path ∉ (before.registry ++ loads).map Prod.fst := by
    rw [List.map_append, List.mem_append, not_or]
    exact ⟨loaded?_eq_none_iff.mp absent, (List.nodup_cons.mp grown.distinct).1⟩
  have kept : ∀ entry ∈ before.registry ++ loads, decide (entry.1 ≠ path) = true := by
    intro entry member
    rw [decide_eq_true_iff]
    rintro rfl
    exact others (List.mem_map_of_mem member)
  refine ⟨?_, ?_, inside.distinct, fun found => grown.tables found⟩
  · rw [List.forall_mem_append] at kept
    rw [unregister, grown.registry, List.filter_append, List.filter_cons_of_neg (by simp),
      List.filter_eq_self.mpr kept.1, List.filter_eq_self.mpr kept.2]
  · intro other member
    exact grown.fresh other (List.mem_cons_of_mem _ member)

end Grown

end CommandScript.Machine
