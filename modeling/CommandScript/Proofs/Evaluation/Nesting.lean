import CommandScript.Loader.Basic
import CommandScript.Proofs.Evaluation.Shape
import Mathlib.Data.List.MinMax

/-!
# How deeply scripts are nested

Scripts stand in the arguments of commands, and those in lists and in scripts again. A script that
defines no function anywhere in it, and whose scripts are nested no deeper than a bound, fits the
bound; so do the parts that a command is taken apart into. Modules in memory are as deep as the
deepest of their scripts.
-/

namespace CommandScript

namespace Source

mutual

/-- No command in the argument defines a function. -/
def Argument.definesNone : Argument → Bool
  | .list items => Argument.allDefineNone items
  | .script commands => Command.allDefineNone commands
  | _ => true

def Argument.allDefineNone : List Argument → Bool
  | [] => true
  | arg :: rest => arg.definesNone && Argument.allDefineNone rest

/-- Neither the command nor one in its arguments defines a function. -/
def Command.definesNone : Command → Bool
  | .mk head args => head.text != Evaluation.Builtin.function.name && Argument.allDefineNone args

def Command.allDefineNone : List Command → Bool
  | [] => true
  | command :: rest => command.definesNone && Command.allDefineNone rest

end

/-- No command in the script defines a function, however deep it is. -/
def Script.definesNone (script : Script) : Bool :=
  Command.allDefineNone script

mutual

/-- How deeply scripts are nested in the argument. -/
def Argument.nest : Argument → Nat
  | .list items => Argument.nestAll items
  | .script commands => Command.nestAll commands + 1
  | _ => 0

def Argument.nestAll : List Argument → Nat
  | [] => 0
  | arg :: rest => max arg.nest (Argument.nestAll rest)

/-- How deeply scripts are nested in the arguments of the command. -/
def Command.nest : Command → Nat
  | .mk _ args => Argument.nestAll args

def Command.nestAll : List Command → Nat
  | [] => 0
  | command :: rest => max command.nest (Command.nestAll rest)

end

/-- How deeply scripts are nested in the script, itself among them. -/
def Script.nest (script : Script) : Nat :=
  Command.nestAll script + 1

/-! ## What fits a bound -/

/-- The argument defines no function, and its scripts are nested within the bound. -/
structure Argument.Fits (rank : Nat) (arg : Argument) : Prop where
  plain : arg.definesNone = true
  bound : arg.nest ≤ rank

/-- The command defines no function, and the scripts in its arguments are nested within the
bound. -/
structure Command.Fits (rank : Nat) (command : Command) : Prop where
  plain : command.definesNone = true
  bound : command.nest ≤ rank

/-- The script defines no function, and it is nested within the bound. -/
structure Script.Fits (rank : Nat) (script : Script) : Prop where
  plain : Script.definesNone script = true
  bound : Script.nest script ≤ rank

variable {rank : Nat}

/-- A script fits into more levels. -/
theorem Script.Fits.mono {script : Script} (fits : Script.Fits rank script) {more : Nat}
    (le : rank ≤ more) : Script.Fits more script :=
  ⟨fits.plain, Nat.le_trans fits.bound le⟩

/-- A script in an argument is one level further in. -/
theorem Argument.Fits.script {commands : Script} (fits : (Argument.script commands).Fits rank) :
    Script.Fits rank commands :=
  ⟨fits.plain, fits.bound⟩

/-- Arguments fit if all of them together do. -/
theorem Argument.fits_of_mem {args : List Argument}
    (plain : Argument.allDefineNone args = true)
    (bound : Argument.nestAll args ≤ rank) : ∀ arg ∈ args, arg.Fits rank := by
  induction args with
  | nil => exact nofun
  | cons arg rest ih =>
      rw [Argument.allDefineNone, Bool.and_eq_true] at plain
      rw [Argument.nestAll, Nat.max_le] at bound
      exact List.forall_mem_cons.mpr ⟨⟨plain.1, bound.1⟩, ih plain.2 bound.2⟩

/-- The items of a list fit where the list does. -/
theorem Argument.Fits.items {args : List Argument} (fits : (Argument.list args).Fits rank) :
    ∀ arg ∈ args, arg.Fits rank :=
  Argument.fits_of_mem fits.plain fits.bound

/-- Commands fit if the script of them does. -/
theorem Command.fits_of_mem {script : Script}
    (plain : Command.allDefineNone script = true)
    (bound : Command.nestAll script ≤ rank) : ∀ command ∈ script, command.Fits rank := by
  induction script with
  | nil => exact nofun
  | cons command rest ih =>
      rw [Command.allDefineNone, Bool.and_eq_true] at plain
      rw [Command.nestAll, Nat.max_le] at bound
      exact List.forall_mem_cons.mpr ⟨⟨plain.1, bound.1⟩, ih plain.2 bound.2⟩

/-- The commands of a script are nested less deeply than the script. -/
theorem Script.Fits.commands {script : Script} (fits : Script.Fits (rank + 1) script) :
    ∀ command ∈ script, command.Fits rank :=
  Command.fits_of_mem fits.plain (Nat.le_of_succ_le_succ fits.bound)

/-- The arguments of a command fit where the command does. -/
theorem Command.Fits.arguments {head : Symbol} {args : List Argument}
    (fits : (Command.mk head args).Fits rank) : ∀ arg ∈ args, arg.Fits rank :=
  Argument.fits_of_mem (Bool.and_eq_true_iff.mp fits.plain).2 fits.bound

/-- A command that fits defines no function. -/
theorem Command.Fits.head_ne {head : Symbol} {args : List Argument}
    (fits : (Command.mk head args).Fits rank) :
    head.text ≠ Evaluation.Builtin.function.name :=
  bne_iff_ne.mp (Bool.and_eq_true_iff.mp fits.plain).1

end Source

namespace Evaluation

open CommandScript.Source

variable {rank : Nat}

/-! ## Built-in commands taken apart -/

structure Clause.Fits (rank : Nat) (clause : Clause) : Prop where
  condition : ∀ script ∈ clause.condition, Script.Fits rank script
  body : Script.Fits rank clause.body

/-- The parts of a built-in command that defines no function fit the bound. -/
inductive Form.Fits (rank : Nat) : Form → Prop where
  | define (name : Symbol) {value : Argument} (fits : value.Fits rank) : Fits rank (.define name value)
  | choose {condition : Argument} {consequence : Script} {alternative : Option Script}
    (tested : condition.Fits rank) (fits : Script.Fits rank consequence)
    (others : ∀ script ∈ alternative, Script.Fits rank script) :
    Fits rank (.choose condition consequence alternative)
  | select {clauses : List Clause} (each : ∀ clause ∈ clauses, clause.Fits rank) :
    Fits rank (.select clauses)
  | guard {condition body : Script} (tested : Script.Fits rank condition)
    (fits : Script.Fits rank body) : Fits rank (.guard condition body)
  | loop (counter : Symbol) {first last : Argument} {body : Script} (starts : first.Fits rank)
    (stops : last.Fits rank) (fits : Script.Fits rank body) :
    Fits rank (.loop counter first last body)
  | load (entries : List (String × Symbol)) : Fits rank (.load entries)
  | print (channel : Symbol) {args : List Argument} (each : ∀ arg ∈ args, arg.Fits rank) :
    Fits rank (.print channel args)
  | block {body : Script} (fits : Script.Fits rank body) : Fits rank (.block body)
  | truth (value : Bool) : Fits rank (.truth value)

/-- The condition and the body of a clause fit where its command does. -/
theorem IsClause.fits {command : Command} {clause : Clause} (is : IsClause command clause)
    (fits : command.Fits rank) : clause.Fits rank := by
  cases is with
  | case word condition body =>
      have each := fits.arguments
      simp only [List.forall_mem_cons] at each
      refine ⟨fun script same => ?_, each.2.1.script⟩
      cases same
      exact each.1.script
  | otherwise word body =>
      exact ⟨nofun, (fits.arguments _ List.mem_cons_self).script⟩

/-- Clauses fit where their commands do. -/
theorem fits_of_isClause {script : Script} {clauses : List Clause}
    (each : List.Forall₂ IsClause script clauses) (fits : ∀ command ∈ script, command.Fits rank) :
    ∀ clause ∈ clauses, clause.Fits rank := by
  induction each with
  | nil => exact nofun
  | cons is _ ih =>
      rw [List.forall_mem_cons] at fits
      exact List.forall_mem_cons.mpr ⟨is.fits fits.1, ih fits.2⟩

/-- What a built-in command is made of fits where its arguments do. -/
theorem Shaped.fits {builtin : Builtin} {args : List Argument} {form : Form}
    (shaped : Shaped builtin args form) (ordinary : builtin ≠ .function)
    (fits : ∀ arg ∈ args, arg.Fits rank) : form.Fits rank := by
  cases shaped with
  | define name value => exact .define name (fits value (by simp))
  | choose condition consequence =>
      exact .choose (fits condition (by simp)) (fits (.script consequence) (by simp)).script nofun
  | chooseElse is condition consequence alternative =>
      refine .choose (fits condition (by simp)) (fits (.script consequence) (by simp)).script ?_
      rintro script ⟨⟩
      exact (fits (.script alternative) (by simp)).script
  | @select commands clauses each =>
      have within : Script.Fits (rank + 1) commands :=
        (fits (.script commands) (by simp)).script.mono (Nat.le_succ rank)
      exact .select (fits_of_isClause each within.commands)
  | guard condition body =>
      exact .guard (fits (.script condition) (by simp)).script (fits (.script body) (by simp)).script
  | loop starts stops counter first last body =>
      exact .loop counter (fits first (by simp)) (fits last (by simp))
        (fits (.script body) (by simp)).script
  | function name params body => exact absurd rfl ordinary
  | load each => exact .load _
  | printOut args => exact .print _ fits
  | printErr args => exact .print _ fits
  | block body => exact .block (fits (.script body) (by simp)).script
  | yes args => exact .truth true
  | no args => exact .truth false

end Evaluation

namespace Loader

open CommandScript.Source

/-! ## Modules in memory -/

/-- The script of a module, if its source can be read. -/
def ModuleText.script? : ModuleText → Option Script
  | .source text => (parseSource text).toOption
  | .tree script => some script

/-- The scripts of all modules that can be read. -/
def Memory.scripts (memory : Memory) : List Script :=
  memory.modules.filterMap fun entry => entry.2.script?

/-- No module defines a function. -/
def Memory.definesNone (memory : Memory) : Bool :=
  memory.scripts.all Script.definesNone

/-- How deeply scripts are nested in the modules. -/
def Memory.nest (memory : Memory) : Nat :=
  (memory.scripts.map Script.nest).foldr max 0

variable {memory : Memory} {path : String} {script : Script}

/-- A module that is loaded from memory is one of those in it. -/
theorem Memory.mem_of_load (loaded : memory.load path = .ok script) :
    ∃ text, (path, text) ∈ memory.modules ∧ text.script? = some script := by
  rw [load] at loaded
  cases found : memory.find? path with
  | none =>
      rw [found] at loaded
      cases loaded
  | some text =>
      obtain ⟨before, after, same, -⟩ := List.lookup_eq_some_iff.mp found
      refine ⟨text, same ▸ List.mem_append_right before List.mem_cons_self, ?_⟩
      rw [found] at loaded
      cases text with
      | source text =>
          change parseSource text = .ok script at loaded
          rw [ModuleText.script?, loaded]
          rfl
      | tree held =>
          cases loaded
          rfl

/-- What is loaded fits the bound of all modules. -/
theorem Memory.fits_of_load (plain : memory.definesNone = true)
    (loaded : memory.load path = .ok script) : Script.Fits memory.nest script := by
  obtain ⟨text, member, held⟩ := mem_of_load loaded
  have among : script ∈ memory.scripts := List.mem_filterMap.mpr ⟨_, member, held⟩
  refine ⟨List.all_eq_true.mp plain script among, ?_⟩
  exact List.le_max_of_le' 0 (List.mem_map_of_mem among) (Nat.le_refl _)

end Loader

end CommandScript
