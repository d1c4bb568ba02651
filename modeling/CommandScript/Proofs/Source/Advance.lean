import CommandScript.Proofs.Source.Acceptance

/-!
# Where a reader leaves the cursor

A reader that accepts takes some text off the front and leaves the cursor behind it, at the position
that this text leads to. So the position of a cursor is at all times the one of the next character,
counted from the start of the source.
-/

namespace CommandScript.Source

open CommandScript.Text

/-- The cursor stands behind some text in front of which the other one stands. -/
def Cursor.Follows (behind cursor : Cursor) : Prop :=
  ∃ own, behind.Behind own cursor

/-- A cursor follows all that were followed on its way. -/
theorem Cursor.Follows.trans {first second third : Cursor} (later : third.Follows second)
    (sooner : second.Follows first) : third.Follows first := by
  obtain ⟨back, behindSecond⟩ := later
  obtain ⟨front, behindFirst⟩ := sooner
  exact ⟨front ++ back, behindFirst.trans behindSecond⟩

theorem follows_advance (cursor : Cursor) (count : Nat) : (cursor.advance count).Follows cursor :=
  ⟨_, cursor.behind_advance count⟩

theorem follows_skip (cursor : Cursor) (condition : Char → Bool) :
    (cursor.skip condition).Follows cursor :=
  ⟨_, cursor.behind_skip condition⟩

/-! ## Words and texts -/

/-- Behind an expected character the cursor stands one further. -/
theorem behind_of_expect {wanted : Char} {cursor behind : Cursor}
    (read : expect wanted cursor = .ok behind) : behind.Behind [wanted] cursor := by
  rw [expect] at read
  split at read
  · cases read
  · rename_i found rest front
    split at read
    · rename_i same
      cases read
      have moved := cursor.behind_advance 1
      rw [front, same] at moved
      exact moved
    · cases read

/-- The cursor goes forward over an expected character. -/
theorem follows_of_expect {wanted : Char} {cursor behind : Cursor}
    (read : expect wanted cursor = .ok behind) : behind.Follows cursor :=
  ⟨[wanted], behind_of_expect read⟩

theorem follows_of_word {cursor behind : Cursor} {text : List Char}
    (read : word cursor = .ok (text, behind)) : behind.Follows cursor := by
  rw [word] at read
  split at read
  · cases read
  · split at read
    · cases read
    · cases read
      exact follows_skip cursor _

theorem follows_of_headWord {cursor behind : Cursor} {head : Symbol}
    (read : headWord cursor = .ok (head, behind)) : behind.Follows cursor := by
  cases headWord_outcome read with
  | head readWord _ => exact follows_of_word readWord

theorem follows_of_plainWord {cursor behind : Cursor} {arg : Argument}
    (read : plainWord cursor = .ok (arg, behind)) : behind.Follows cursor := by
  cases plainWord_outcome read with
  | number readWord _ => exact follows_of_word readWord
  | symbol readWord _ => exact follows_of_word readWord

theorem follows_of_variableWord {cursor behind : Cursor} {arg : Argument}
    (read : variableWord cursor = .ok (arg, behind)) : behind.Follows cursor := by
  cases variableWord_outcome read with
  | named readWord _ => exact (follows_of_word readWord).trans (follows_advance cursor 1)

/-- One more character stands in front of what a reader has taken. -/
theorem Cursor.Follows.cons {c : Char} {rest : List Char} {position : Position} {behind : Cursor}
    (follows : behind.Follows ⟨rest, position.next c⟩) : behind.Follows ⟨c :: rest, position⟩ :=
  follows.trans ⟨[c], rfl, rfl⟩

/-- The cursor goes forward over the body of a text. -/
theorem follows_of_textBody {opening position : Position} {before text : List Char}
    {behind : Cursor} (read : textBody opening before position = .ok (text, behind)) :
    behind.Follows ⟨before, position⟩ := by
  fun_induction textBody opening before position generalizing text behind with
  | case1 => cases read
  | case2 position rest =>
      cases read
      exact Cursor.Follows.cons ⟨[], .refl _⟩
  | case3 => cases read
  | case4 => cases read
  | case5 code rest position later c known inside cursor readRest =>
      rename_i ih
      cases read
      exact (ih readRest).cons.cons
  | case6 => cases read
  | case7 c rest position quote single backslash inside cursor readRest ih =>
      cases read
      exact (ih readRest).cons
  | case8 => cases read

/-- The cursor goes forward over the body of a raw text. -/
theorem follows_of_rawTextBody {opening position : Position} {before text : List Char}
    {behind : Cursor} (read : rawTextBody opening before position = .ok (text, behind)) :
    behind.Follows ⟨before, position⟩ := by
  fun_induction rawTextBody opening before position generalizing text behind with
  | case1 => cases read
  | case2 c rest position closes =>
      cases read
      exact follows_advance _ 3
  | case3 c rest position goesOn inside cursor readRest ih =>
      cases read
      exact (ih readRest).cons
  | case4 => cases read

theorem follows_of_quotation {cursor behind : Cursor} {text : String}
    (read : quotation cursor = .ok (text, behind)) : behind.Follows cursor := by
  cases quotation_outcome read with
  | raw _ read => exact (follows_of_rawTextBody read).trans (follows_advance cursor 3)
  | text _ opened read => exact (follows_of_textBody read).trans (follows_of_expect opened)

/-! ## Nested parts -/

/-- The readers of nested parts leave the cursor behind what they have read with this many steps. -/
structure Advances (steps : Nat) : Prop where
  block : ∀ {cursor behind : Cursor} {script : Script},
    block steps cursor = .ok (script, behind) → behind.Follows cursor
  commands : ∀ {inBlock : Bool} {cursor behind : Cursor} {script : Script},
    commands steps inBlock cursor = .ok (script, behind) → behind.Follows cursor
  command : ∀ {inBlock : Bool} {cursor behind : Cursor} {entry : Command},
    command steps inBlock cursor = .ok (entry, behind) → behind.Follows cursor
  arguments : ∀ {inBlock : Bool} {cursor behind : Cursor} {args : List Argument},
    arguments steps inBlock cursor = .ok (args, behind) → behind.Follows cursor
  argument : ∀ {cursor behind : Cursor} {arg : Argument},
    argument steps cursor = .ok (arg, behind) → behind.Follows cursor
  items : ∀ {cursor behind : Cursor} {list : List Argument},
    items steps cursor = .ok (list, behind) → behind.Follows cursor

section Step

variable {steps : Nat} (less : Advances steps)
include less

theorem Advances.block_succ {cursor behind : Cursor} {script : Script}
    (read : Source.block (steps + 1) cursor = .ok (script, behind)) : behind.Follows cursor := by
  cases block_outcome read with
  | whole opened readInside closed =>
      exact (follows_of_expect closed).trans
        ((less.commands readInside).trans (follows_of_expect opened))

theorem Advances.commands_succ {inBlock : Bool} {cursor behind : Cursor} {script : Script}
    (read : Source.commands (steps + 1) inBlock cursor = .ok (script, behind)) :
    behind.Follows cursor := by
  have skipped := follows_skip cursor isSeparator
  cases commands_outcome read with
  | ended _ => exact skipped
  | more readFirst _ readRest =>
      exact (less.commands readRest).trans ((less.command readFirst).trans skipped)

theorem Advances.command_succ {inBlock : Bool} {cursor behind : Cursor} {entry : Command}
    (read : Source.command (steps + 1) inBlock cursor = .ok (entry, behind)) :
    behind.Follows cursor := by
  cases command_outcome read with
  | block _ readBlock => exact (follows_skip _ isInlineBlank).trans (less.block readBlock)
  | call readHead readArgs =>
      exact (less.arguments readArgs).trans (follows_of_headWord readHead)

theorem Advances.arguments_succ {inBlock : Bool} {cursor behind : Cursor} {args : List Argument}
    (read : Source.arguments (steps + 1) inBlock cursor = .ok (args, behind)) :
    behind.Follows cursor := by
  have skipped := follows_skip cursor isInlineBlank
  cases arguments_outcome read with
  | ended _ _ => exact skipped
  | more readFirst readRest =>
      exact (less.arguments readRest).trans ((less.argument readFirst).trans skipped)

theorem Advances.argument_succ {cursor behind : Cursor} {arg : Argument}
    (read : Source.argument (steps + 1) cursor = .ok (arg, behind)) : behind.Follows cursor := by
  cases argument_outcome read with
  | block readBlock => exact less.block readBlock
  | list opened readItems => exact (less.items readItems).trans (follows_of_expect opened)
  | text readText => exact follows_of_quotation readText
  | sign _ read => exact follows_of_variableWord read
  | word read => exact follows_of_plainWord read

theorem Advances.items_succ {cursor behind : Cursor} {list : List Argument}
    (read : Source.items (steps + 1) cursor = .ok (list, behind)) : behind.Follows cursor := by
  have skipped := follows_skip cursor isBlank
  cases items_outcome read with
  | ended _ => exact (follows_advance _ 1).trans skipped
  | more readFirst readRest =>
      exact (less.items readRest).trans ((less.argument readFirst).trans skipped)

end Step

/-- All readers go forward, whatever the number of steps. -/
theorem advances (steps : Nat) : Advances steps := by
  induction steps with
  | zero => exact {
      block := nofun
      commands := nofun
      command := nofun
      arguments := nofun
      argument := nofun
      items := nofun }
  | succ steps less => exact {
      block := less.block_succ
      commands := less.commands_succ
      command := less.command_succ
      arguments := less.arguments_succ
      argument := less.argument_succ
      items := less.items_succ }

end CommandScript.Source
