import CommandScript.Proofs.Source.Recognition

/-!
# Enough steps

The readers of nested parts are bounded by a number of steps. With four steps for each character
that is left, and a few more, the bound does not matter: any two such numbers of steps give the same
result, the same error at the same position included. Every reader hands on one step less, and
between two characters the readers use each other at most four times.
-/

namespace CommandScript.Source

open CommandScript.Text

/-- Two readers that begin alike are the same if they go on alike from what is read first. -/
theorem bind_congr_of_ok {α β : Type} {first other : Except ParseError α}
    {next rest : α → Except ParseError β} (same : first = other)
    (goesOn : ∀ value, first = .ok value → next value = rest value) :
    (first >>= next) = (other >>= rest) := by
  subst same
  cases first with
  | error error => rfl
  | ok value => exact goesOn value rfl

/-- A head takes a character at least. -/
theorem length_rest_of_headWord {cursor behind : Cursor} {head : Symbol}
    (read : headWord cursor = .ok (head, behind)) :
    behind.rest.length < cursor.rest.length := by
  rw [(rest_of_headWord read).1]
  exact (takes_append (isWord_symbol head).1 behind.rest).2

/-- A command takes some of the text. -/
theorem SpellsCommands.takes_of_cons {before after : List Char} {entry : Command} {others : Script}
    (spelled : SpellsCommands before (entry :: others) after) : Takes before after := by
  cases spelled with
  | @block separators _ _ _ _ _ separates head tail =>
      have taken := head.takes.of_suffix (List.suffix_append separators _)
      exact ⟨tail.suffix.trans taken.1, tail.suffix.length_le.trans_lt taken.2⟩
  | @call separators behind _ _ _ _ separates head ends arguments tail =>
      have word := takes_append (isWord_symbol head).1 behind
      have taken := word.of_suffix (List.suffix_append separators _)
      have left := tail.suffix.trans arguments.suffix
      exact ⟨left.trans taken.1, left.length_le.trans_lt taken.2⟩

/-- A command takes a character at least. -/
theorem length_rest_of_command {steps : Nat} {inBlock : Bool} {cursor behind : Cursor}
    {entry : Command} (read : command steps inBlock cursor = .ok (entry, behind)) :
    behind.rest.length < cursor.rest.length := by
  have spelled := (accepts steps).command read (spellsCommands_nil behind.rest)
  exact spelled.takes_of_cons.2

/-- An argument takes a character at least. -/
theorem length_rest_of_argument {steps : Nat} {cursor behind : Cursor} {arg : Argument}
    (read : argument steps cursor = .ok (arg, behind)) :
    behind.rest.length < cursor.rest.length :=
  ((accepts steps).argument read).takes.2

/-- With these two numbers of steps the readers of nested parts do the same, wherever both numbers
are enough. -/
structure SameWith (steps more : Nat) : Prop where
  block : ∀ cursor : Cursor, 4 * cursor.rest.length + 1 ≤ steps →
    4 * cursor.rest.length + 1 ≤ more → block steps cursor = block more cursor
  commands : ∀ (inBlock : Bool) (cursor : Cursor), 4 * cursor.rest.length + 3 ≤ steps →
    4 * cursor.rest.length + 3 ≤ more → commands steps inBlock cursor = commands more inBlock cursor
  command : ∀ (inBlock : Bool) (cursor : Cursor), 4 * cursor.rest.length + 2 ≤ steps →
    4 * cursor.rest.length + 2 ≤ more → command steps inBlock cursor = command more inBlock cursor
  arguments : ∀ (inBlock : Bool) (cursor : Cursor), 4 * cursor.rest.length + 3 ≤ steps →
    4 * cursor.rest.length + 3 ≤ more →
    arguments steps inBlock cursor = arguments more inBlock cursor
  argument : ∀ cursor : Cursor, 4 * cursor.rest.length + 2 ≤ steps →
    4 * cursor.rest.length + 2 ≤ more → argument steps cursor = argument more cursor
  items : ∀ cursor : Cursor, 4 * cursor.rest.length + 3 ≤ steps →
    4 * cursor.rest.length + 3 ≤ more → items steps cursor = items more cursor

section Step

variable {steps more : Nat} (less : SameWith steps more)
include less

theorem SameWith.block_succ (cursor : Cursor) (enough : 4 * cursor.rest.length + 1 ≤ steps + 1)
    (enough' : 4 * cursor.rest.length + 1 ≤ more + 1) :
    Source.block (steps + 1) cursor = Source.block (more + 1) cursor := by
  rw [Source.block, Source.block]
  refine bind_congr_of_ok rfl fun inside opened => ?_
  have shorter := length_rest_of_expect opened
  exact bind_congr_of_ok (less.commands true inside (by omega) (by omega)) fun _ _ => rfl

theorem SameWith.commands_succ (inBlock : Bool) (cursor : Cursor)
    (enough : 4 * cursor.rest.length + 3 ≤ steps + 1)
    (enough' : 4 * cursor.rest.length + 3 ≤ more + 1) :
    Source.commands (steps + 1) inBlock cursor = Source.commands (more + 1) inBlock cursor := by
  have within := length_rest_skip_le cursor isSeparator
  rw [Source.commands, Source.commands]
  split
  · rfl
  · split
    · rfl
    · refine bind_congr_of_ok (less.command inBlock _ (by omega) (by omega)) fun first read => ?_
      have shorter := length_rest_of_command read
      refine bind_congr_of_ok rfl fun _ _ => ?_
      exact bind_congr_of_ok (less.commands inBlock first.2 (by omega) (by omega)) fun _ _ => rfl

theorem SameWith.command_succ (inBlock : Bool) (cursor : Cursor)
    (enough : 4 * cursor.rest.length + 2 ≤ steps + 1)
    (enough' : 4 * cursor.rest.length + 2 ≤ more + 1) :
    Source.command (steps + 1) inBlock cursor = Source.command (more + 1) inBlock cursor := by
  rw [Source.command.eq_def, Source.command.eq_def]
  dsimp only
  split
  · exact bind_congr_of_ok (less.block cursor (by omega) (by omega)) fun _ _ => rfl
  · refine bind_congr_of_ok rfl fun head read => ?_
    have shorter := length_rest_of_headWord read
    exact bind_congr_of_ok (less.arguments inBlock head.2 (by omega) (by omega)) fun _ _ => rfl

theorem SameWith.arguments_succ (inBlock : Bool) (cursor : Cursor)
    (enough : 4 * cursor.rest.length + 3 ≤ steps + 1)
    (enough' : 4 * cursor.rest.length + 3 ≤ more + 1) :
    Source.arguments (steps + 1) inBlock cursor = Source.arguments (more + 1) inBlock cursor := by
  have within := length_rest_skip_le cursor isInlineBlank
  rw [Source.arguments, Source.arguments]
  split
  · rfl
  · split
    · rfl
    · refine bind_congr_of_ok (less.argument _ (by omega) (by omega)) fun first read => ?_
      have shorter := length_rest_of_argument read
      exact bind_congr_of_ok (less.arguments inBlock first.2 (by omega) (by omega)) fun _ _ => rfl

theorem SameWith.argument_succ (cursor : Cursor) (enough : 4 * cursor.rest.length + 2 ≤ steps + 1)
    (enough' : 4 * cursor.rest.length + 2 ≤ more + 1) :
    Source.argument (steps + 1) cursor = Source.argument (more + 1) cursor := by
  rw [Source.argument.eq_def, Source.argument.eq_def]
  dsimp only
  split
  · exact bind_congr_of_ok (less.block cursor (by omega) (by omega)) fun _ _ => rfl
  · refine bind_congr_of_ok rfl fun inside opened => ?_
    have shorter := length_rest_of_expect opened
    exact bind_congr_of_ok (less.items inside (by omega) (by omega)) fun _ _ => rfl
  all_goals rfl

theorem SameWith.items_succ (cursor : Cursor) (enough : 4 * cursor.rest.length + 3 ≤ steps + 1)
    (enough' : 4 * cursor.rest.length + 3 ≤ more + 1) :
    Source.items (steps + 1) cursor = Source.items (more + 1) cursor := by
  have within := length_rest_skip_le cursor isBlank
  rw [Source.items, Source.items]
  split
  · rfl
  · split
    · rfl
    · refine bind_congr_of_ok (less.argument _ (by omega) (by omega)) fun first read => ?_
      have shorter := length_rest_of_argument read
      exact bind_congr_of_ok (less.items first.2 (by omega) (by omega)) fun _ _ => rfl

end Step

/-- All readers read the same with any numbers of steps that suffice. -/
theorem sameWith (steps more : Nat) : SameWith steps more := by
  induction steps generalizing more with
  | zero => constructor <;> omega
  | succ steps less =>
      cases more with
      | zero => constructor <;> omega
      | succ more => exact {
          block := (less more).block_succ
          commands := (less more).commands_succ
          command := (less more).command_succ
          arguments := (less more).arguments_succ
          argument := (less more).argument_succ
          items := (less more).items_succ }

end CommandScript.Source
