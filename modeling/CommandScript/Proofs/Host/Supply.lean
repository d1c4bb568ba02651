import CommandScript.Host.Toolkit
import CommandScript.Proofs.Machine.Sealing

/-!
# The standard host processes make up no values

Most of them answer with a number, a text, a symbol or a list, which lead nowhere, or with their
first argument. The value in the cell is what an earlier call was given.
-/

namespace CommandScript.Host

open CommandScript.Machine

/-- All that the host keeps is the value in its cell. -/
def cellKeeps : Keeps Cell :=
  fun _ cell => cell.nodes

/-- The action yields and keeps nothing but what its arguments and the cell lead to. -/
structure MakesUpNothing (action : Action) : Prop where
  yields : ∀ call cell value, (action call cell).1 = .ok value →
    value.nodes ⊆ cell.nodes ∪ nodesOf call.args
  retains : ∀ call cell, (action call cell).2.nodes ⊆ cell.nodes ∪ nodesOf call.args

/-- An argument of a call leads nowhere else than the arguments do. -/
theorem nodes_arg (call : ProcessCall) (index : Nat) : (arg call index).nodes ⊆ nodesOf call.args := by
  intro node leads
  rw [arg, List.getD_eq_getElem?_getD] at leads
  cases found : call.args[index]? with
  | none =>
      rw [found] at leads
      exact absurd leads (Set.notMem_empty node)
  | some value =>
      rw [found] at leads
      exact ⟨value, List.mem_of_getElem? found, leads⟩

/-- A process that leaves the cell alone may answer with its arguments. -/
theorem MakesUpNothing.answering {answer : ProcessCall → Except EvalError Value}
    (given : ∀ call value, answer call = .ok value → value.nodes ⊆ nodesOf call.args) :
    MakesUpNothing (answering answer) where
  yields call _ value yielded := (given call value yielded).trans Set.subset_union_right
  retains _ _ := Set.subset_union_left

/-- A process may answer with values that lead nowhere. -/
theorem MakesUpNothing.plain {answer : ProcessCall → Except EvalError Value}
    (plain : ∀ call value, answer call = .ok value → value.nodes = ∅) :
    MakesUpNothing (Host.answering answer) :=
  .answering fun call value yielded => by
    rw [plain call value yielded]
    exact Set.empty_subset _

/-- What follows a computation that may fail leads nowhere, if its values do not. -/
theorem nodes_of_bind {α : Type} {first : Except EvalError α} {next : α → Except EvalError Value}
    {value : Value} (plain : ∀ a, next a = .ok value → value.nodes = ∅)
    (yielded : (first >>= next) = .ok value) : value.nodes = ∅ := by
  cases first with
  | error error => cases yielded
  | ok a => exact plain a yielded

/-- An operation on numbers makes up nothing if its results lead nowhere. -/
theorem nodes_onNumbers {operation : Float → Float → Value}
    (plain : ∀ a b, (operation a b).nodes = ∅) :
    MakesUpNothing (answering (onNumbers operation)) :=
  .plain fun _ _ => nodes_of_bind fun _ => nodes_of_bind fun _ told => by
    cases told
    exact plain _ _

/-- None of the known processes makes up a value. -/
theorem makesUpNothing_action {name : String} {action : Action} (known : action? name = some action) :
    MakesUpNothing action := by
  rw [action?.eq_def] at known
  split at known
  case h_18 => cases known
  all_goals cases known
  case h_1 | h_2 | h_3 | h_6 | h_14 =>
    exact .plain fun _ _ => nodes_of_bind fun _ told => by cases told; rfl
  case h_4 | h_5 => exact nodes_onNumbers fun _ _ => rfl
  case h_12 => exact .answering fun call _ told => by cases told; exact nodes_arg call 0
  case h_16 =>
    refine ⟨fun _ _ _ told => ?_, fun call _ => (nodes_arg call 0).trans Set.subset_union_right⟩
    cases told
    exact Set.empty_subset _
  case h_17 =>
    refine ⟨fun _ _ _ told => ?_, fun _ _ => Set.subset_union_left⟩
    cases told
    exact Set.subset_union_left
  all_goals exact .plain fun _ _ told => by cases told <;> rfl

/-- A machine with none but standard processes, and a loader that leaves the cell alone, makes up no
values. -/
theorem hostLaws_of_standard {machine : Machine Cell}
    (standard : ∀ process ∈ machine.processes, ∃ name, process? name = some process)
    (apart : ∀ load ∈ machine.loader, ∀ path cell, (load path cell).2 = cell) :
    HostLaws cellKeeps machine := by
  have lawful : ∀ {id : ProcessId} {process}, machine.processes[id]? = some process →
      MakesUpNothing process.run := by
    intro id process found
    obtain ⟨name, known⟩ := standard process (Array.mem_of_getElem? found)
    obtain ⟨action, same, rfl⟩ := Option.map_eq_some_iff.mp known
    exact makesUpNothing_action same
  refine ⟨?_, ?_, ?_⟩
  · intro id process found call cell value yielded
    exact (lawful found).yields call cell value yielded
  · intro id process found call cell other
    exact ((lawful found).retains call cell).trans Set.subset_union_right
  · intro load present path cell other
    rw [cellKeeps, cellKeeps, apart load present path cell]

end CommandScript.Host
