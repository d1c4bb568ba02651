import CommandScript.Proofs.Source.Completion
import CommandScript.Proofs.Source.Effort
import CommandScript.Proofs.Source.Sufficiency

/-!
# Readers make progress

A reader that accepts a part moves the cursor on by at least one character, and never past the end
of the text. So it comes to an end on every text, in a number of steps that the characters left
bound. Some of its checks never fail: behind a command that was read, something stands that may
stand there, behind the commands of a block stands the brace that closes it, and a word of the shape
of a numeral spells a number.
-/

namespace CommandScript.Source

open CommandScript.Text

/-! ## Faults -/

/-- A text can be refused for the reason. The other reasons belong to checks that never fail, or to
a reader that was given too few steps. -/
def Fault.Told : Fault → Prop
  | .expected _ _ | .expectedBeforeEnd _ | .afterCommand _ | .badNumber _ | .exhausted => False
  | _ => True

/-- The error is one that a text can have, or the reader had fewer steps than it needs. -/
def Refused (enough steps : Nat) (error : ParseError) : Prop :=
  error.fault.Told ∨ (error.fault = .exhausted ∧ steps < enough)

/-- One level further out there is one step more, and at least one more is needed. -/
theorem Refused.weaken {enough steps more : Nat} {error : ParseError}
    (refused : Refused enough steps error) (within : enough + 1 ≤ more) :
    Refused more (steps + 1) error :=
  refused.imp_right fun few => ⟨few.1, by omega⟩

/-! ## Words and texts -/

/-- A word is refused for a reason that a text can have. -/
theorem told_of_word {cursor : Cursor} {error : ParseError}
    (refused : word cursor = .error error) : error.fault.Told := by
  rw [word] at refused
  split at refused
  · cases refused
    exact trivial
  · split at refused <;> cases refused
    exact trivial

theorem told_of_symbolAt {position : Position} {text : List Char} {error : ParseError}
    (refused : symbolAt position text = .error error) : error.fault.Told := by
  rw [symbolAt] at refused
  split at refused <;> cases refused
  exact trivial

theorem told_of_headWord {cursor : Cursor} {error : ParseError}
    (refused : headWord cursor = .error error) : error.fault.Told := by
  cases headWord_outcome refused with
  | badWord refused => exact told_of_word refused
  | numeral _ => exact trivial
  | badSymbol refused => exact told_of_symbolAt refused

theorem told_of_plainWord {cursor : Cursor} {error : ParseError}
    (refused : plainWord cursor = .error error) : error.fault.Told := by
  cases plainWord_outcome refused with
  | badWord refused => exact told_of_word refused
  | badSymbol refused => exact told_of_symbolAt refused

theorem told_of_variableWord {cursor : Cursor} {error : ParseError}
    (refused : variableWord cursor = .error error) : error.fault.Told := by
  cases variableWord_outcome refused with
  | badWord refused => exact told_of_word refused
  | badName refused => exact told_of_symbolAt refused

/-- A quotation is refused for a reason that a text can have. -/
theorem told_of_quotation {cursor : Cursor} {error : ParseError} {rest : List Char}
    (front : cursor.rest = '"' :: rest) (refused : quotation cursor = .error error) :
    error.fault.Told := by
  cases quotation_outcome refused with
  | badRaw refused =>
      rw [error_of_rawTextBody refused]
      exact trivial
  | unopened missing =>
      rw [(expect_of_cons front).1] at missing
      cases missing
  | badText _ refused =>
      rcases error_of_textBody refused with rfl | ⟨-, -, c, -, fault, -⟩
      · exact trivial
      · rw [fault]
        exact trivial

/-! ## What stands behind a part -/

/-- Arguments are read up to where the command ends. Outside a block no brace ends it. -/
theorem ends_of_arguments {steps : Nat} {inBlock : Bool} {cursor behind : Cursor}
    {args : List Argument} (read : arguments steps inBlock cursor = .ok (args, behind)) :
    EndsCommand behind.rest ∧ ('}' ∈ behind.rest.head? → inBlock = true) := by
  induction steps generalizing cursor args with
  | zero => cases read
  | succ steps ih =>
      cases arguments_outcome read with
      | ended ends inside => exact ⟨ends, inside⟩
      | more _ readRest => exact ih readRest

/-- Nothing but what may follow a command is left behind it. -/
theorem afterCommand_of_command {steps : Nat} {inBlock : Bool} {cursor behind : Cursor}
    {entry : Command} (read : command steps inBlock cursor = .ok (entry, behind)) :
    afterCommand inBlock entry behind = .ok () := by
  cases steps with
  | zero => cases read
  | succ steps =>
      cases command_outcome read with
      | block _ _ => exact afterCommand_of_isBareBlock _ rfl
      | call _ readArgs =>
          obtain ⟨ends, inside⟩ := ends_of_arguments readArgs
          exact afterCommand_of_end ends inside

/-- Commands are read up to the brace that closes their block, or to the end of the source. -/
theorem closes_of_commands {steps : Nat} {inBlock : Bool} {cursor behind : Cursor} {script : Script}
    (read : commands steps inBlock cursor = .ok (script, behind)) :
    ClosesCommands inBlock behind.rest := by
  induction steps generalizing cursor script with
  | zero => cases read
  | succ steps ih =>
      cases commands_outcome read with
      | ended closes => exact closes
      | more _ _ readRest => exact ih readRest

/-- Where commands are closed in a block, the brace is there. -/
theorem ClosesCommands.expect {cursor : Cursor} (closes : ClosesCommands true cursor.rest) :
    Source.expect '}' cursor = .ok (cursor.advance 1) := by
  generalize front : cursor.rest = after at closes
  cases closes with
  | block rest => exact (expect_of_cons front).1

/-! ## Nested parts -/

/-- The readers of nested parts with this many steps refuse a text only for reasons that a text can
have, if the steps are enough. A block can also be missing. -/
structure Tells (steps : Nat) : Prop where
  block : ∀ {cursor : Cursor} {error : ParseError}, block steps cursor = .error error →
    expect '{' cursor = .error error ∨ Refused (4 * cursor.rest.length + 1) steps error
  commands : ∀ {inBlock : Bool} {cursor : Cursor} {error : ParseError},
    commands steps inBlock cursor = .error error →
      Refused (4 * cursor.rest.length + 3) steps error
  command : ∀ {inBlock : Bool} {cursor : Cursor} {error : ParseError},
    command steps inBlock cursor = .error error → Refused (4 * cursor.rest.length + 2) steps error
  arguments : ∀ {inBlock : Bool} {cursor : Cursor} {error : ParseError},
    arguments steps inBlock cursor = .error error →
      Refused (4 * cursor.rest.length + 3) steps error
  argument : ∀ {cursor : Cursor} {error : ParseError}, argument steps cursor = .error error →
    Refused (4 * cursor.rest.length + 2) steps error
  items : ∀ {cursor : Cursor} {error : ParseError}, items steps cursor = .error error →
    Refused (4 * cursor.rest.length + 3) steps error

/-- Without a step the steps are too few. -/
theorem refused_zero {α : Type} {cursor : Cursor} {error : ParseError} (enough : Nat)
    (refused : (cursor.refuse .exhausted : Except ParseError α) = .error error) :
    Refused (enough + 1) 0 error := by
  cases refused
  exact .inr ⟨rfl, Nat.zero_lt_succ enough⟩

section Step

variable {steps : Nat} (less : Tells steps)
include less

theorem Tells.block_succ {cursor : Cursor} {error : ParseError}
    (refused : Source.block (steps + 1) cursor = .error error) :
    expect '{' cursor = .error error ∨ Refused (4 * cursor.rest.length + 1) (steps + 1) error := by
  cases block_outcome refused with
  | unopened missing => exact .inl missing
  | badInside opened refused =>
      have shorter := length_rest_of_expect opened
      exact .inr ((less.commands refused).weaken (by omega))
  | unclosed _ readInside missing =>
      rw [(closes_of_commands readInside).expect] at missing
      cases missing

/-- Where a block begins, it is not missing. -/
theorem Tells.block_of_brace {cursor : Cursor} {rest : List Char} {error : ParseError}
    (front : cursor.rest = '{' :: rest) (refused : Source.block steps cursor = .error error) :
    Refused (4 * cursor.rest.length + 1) steps error := by
  refine (less.block refused).resolve_left fun missing => ?_
  rw [(expect_of_cons front).1] at missing
  cases missing

theorem Tells.commands_succ {inBlock : Bool} {cursor : Cursor} {error : ParseError}
    (refused : Source.commands (steps + 1) inBlock cursor = .error error) :
    Refused (4 * cursor.rest.length + 3) (steps + 1) error := by
  have within := length_rest_skip_le cursor isSeparator
  cases commands_outcome refused with
  | unterminated _ _ => exact .inl trivial
  | badFirst refused => exact (less.command refused).weaken (by omega)
  | badEnd readFirst refused =>
      rw [afterCommand_of_command readFirst] at refused
      cases refused
  | badRest readFirst _ refused =>
      have shorter := length_rest_of_command readFirst
      exact (less.commands refused).weaken (by omega)

theorem Tells.command_succ {inBlock : Bool} {cursor : Cursor} {error : ParseError}
    (refused : Source.command (steps + 1) inBlock cursor = .error error) :
    Refused (4 * cursor.rest.length + 2) (steps + 1) error := by
  cases command_outcome refused with
  | badBlock front refused => exact (less.block_of_brace front refused).weaken (by omega)
  | badHead refused => exact .inl (told_of_headWord refused)
  | badArguments readHead refused =>
      have shorter := length_rest_of_headWord readHead
      exact (less.arguments refused).weaken (by omega)

theorem Tells.arguments_succ {inBlock : Bool} {cursor : Cursor} {error : ParseError}
    (refused : Source.arguments (steps + 1) inBlock cursor = .error error) :
    Refused (4 * cursor.rest.length + 3) (steps + 1) error := by
  have within := length_rest_skip_le cursor isInlineBlank
  cases arguments_outcome refused with
  | badFirst refused => exact (less.argument refused).weaken (by omega)
  | badRest readFirst refused =>
      have shorter := length_rest_of_argument readFirst
      exact (less.arguments refused).weaken (by omega)

theorem Tells.argument_succ {cursor : Cursor} {error : ParseError}
    (refused : Source.argument (steps + 1) cursor = .error error) :
    Refused (4 * cursor.rest.length + 2) (steps + 1) error := by
  cases argument_outcome refused with
  | badBlock front refused => exact (less.block_of_brace front refused).weaken (by omega)
  | badItems opened refused =>
      have shorter := length_rest_of_expect opened
      exact (less.items refused).weaken (by omega)
  | badText front refused => exact .inl (told_of_quotation front refused)
  | sign _ refused => exact .inl (told_of_variableWord refused)
  | mark _ => exact .inl trivial
  | word refused => exact .inl (told_of_plainWord refused)

theorem Tells.items_succ {cursor : Cursor} {error : ParseError}
    (refused : Source.items (steps + 1) cursor = .error error) :
    Refused (4 * cursor.rest.length + 3) (steps + 1) error := by
  have within := length_rest_skip_le cursor isBlank
  cases items_outcome refused with
  | unterminated _ => exact .inl trivial
  | badFirst refused => exact (less.argument refused).weaken (by omega)
  | badRest readFirst refused =>
      have shorter := length_rest_of_argument readFirst
      exact (less.items refused).weaken (by omega)

end Step

/-- No reader with enough steps is refused for want of them. -/
theorem tells (steps : Nat) : Tells steps := by
  induction steps with
  | zero => exact {
      block := fun refused => .inr (refused_zero _ refused)
      commands := refused_zero _
      command := refused_zero _
      arguments := refused_zero _
      argument := refused_zero _
      items := refused_zero _ }
  | succ steps less => exact {
      block := less.block_succ
      commands := less.commands_succ
      command := less.command_succ
      arguments := less.arguments_succ
      argument := less.argument_succ
      items := less.items_succ }

/-! ## Whole sources -/

/-- A text is refused as commands for a reason that a text can have. -/
theorem told_of_parseCommands {text : List Char} {error : ParseError}
    (refused : parseCommands text = .error error) : error.fault.Told := by
  rw [parseCommands] at refused
  cases result : commands (stepsFor text.length) false (Cursor.ofText text) with
  | ok read =>
      rw [result] at refused
      cases refused
  | error told =>
      rw [result] at refused
      cases refused
      refine ((tells _).commands result).resolve_right fun few => ?_
      have enough : stepsFor text.length < 4 * text.length + 3 := few.2
      rw [stepsFor] at enough
      omega

/-- A text is refused as a script for a reason that a text can have. -/
theorem told_of_parse {text : List Char} {error : ParseError}
    (refused : parse text = .error error) : error.fault.Told := by
  rw [parse] at refused
  split at refused
  · rename_i rest front
    split at refused
    · rename_i told badBlock
      cases refused
      refine ((tells _).block_of_brace front badBlock).resolve_right fun few => ?_
      have within := length_rest_skip_le (Cursor.ofText text) isBlank
      replace within : _ ≤ text.length := within
      have enough := few.2
      rw [stepsFor] at enough
      omega
    · split at refused
      · cases refused
      · exact told_of_parseCommands refused
  · exact told_of_parseCommands refused

/-! ## Progress -/

section Onward

variable {α : Type} {text : List Char} {cursor behind : Cursor}

/-- A reader that accepts takes at least one character and stays in the text, at the position to
which the characters in front of its cursor lead. -/
def Onward (text : List Char) (cursor : Cursor) (result : Except ParseError (α × Cursor)) : Prop :=
  ∀ value behind, result = .ok (value, behind) →
    behind.Follows (.ofText text) ∧ ∃ own, own ≠ [] ∧ behind.Behind own cursor

/-- Where characters have been taken, the cursor stands further on in the text. -/
theorem Cursor.Follows.onward (follows : behind.Follows cursor)
    (shorter : behind.rest.length < cursor.rest.length)
    (reached : cursor.Follows (.ofText text)) :
    behind.Follows (.ofText text) ∧ ∃ own, own ≠ [] ∧ behind.Behind own cursor := by
  refine ⟨follows.trans reached, ?_⟩
  obtain ⟨own, taken⟩ := follows
  refine ⟨own, ?_, taken⟩
  rintro rfl
  rw [taken.1, List.nil_append] at shorter
  exact Nat.lt_irrefl _ shorter

end Onward

/-- From a cursor in the text the readers move on in the text, with any number of steps. Those that
read rows of parts, and blanks, may also stay where they are. -/
structure MovesOn (text : List Char) (steps : Nat) (inBlock : Bool) (cursor : Cursor) : Prop where
  skip : ∀ condition, (cursor.skip condition).Follows (.ofText text)
  expect : ∀ wanted behind, expect wanted cursor = .ok behind → behind.Follows (.ofText text)
  word : Onward text cursor (word cursor)
  quotation : Onward text cursor (quotation cursor)
  block : Onward text cursor (block steps cursor)
  command : Onward text cursor (command steps inBlock cursor)
  argument : Onward text cursor (argument steps cursor)
  items : Onward text cursor (items steps cursor)
  commands : ∀ script behind, commands steps inBlock cursor = .ok (script, behind) →
    behind.Follows (.ofText text)
  arguments : ∀ args behind, arguments steps inBlock cursor = .ok (args, behind) →
    behind.Follows (.ofText text)

/-- From a cursor in the text every reader moves on in the text. -/
theorem movesOn {text : List Char} {cursor : Cursor} (reached : cursor.Follows (.ofText text))
    (steps : Nat) (inBlock : Bool) : MovesOn text steps inBlock cursor where
  skip condition := (follows_skip cursor condition).trans reached
  expect _ _ read := (follows_of_expect read).trans reached
  word _ behind read := by
    have taken := wordSpan_of_word read
    exact (follows_of_word read).onward (by omega) reached
  quotation _ behind read := by
    have taken := quotationSpan_of_quotation read
    exact (follows_of_quotation read).onward (by omega) reached
  block _ behind read := by
    have taken := ((accepts steps).block read).takes
    exact ((advances steps).block read).onward taken.2 reached
  command _ _ read :=
    ((advances steps).command read).onward (length_rest_of_command read) reached
  argument _ _ read :=
    ((advances steps).argument read).onward (length_rest_of_argument read) reached
  items _ _ read :=
    ((advances steps).items read).onward ((accepts steps).items read).takes.2 reached
  commands _ _ read := ((advances steps).commands read).trans reached
  arguments _ _ read := ((advances steps).arguments read).trans reached

/-- The readers come to an end, whether they accept or not: what they do is bounded by the number of
characters that are left. -/
structure ComesToEnd (steps : Nat) (inBlock : Bool) (cursor : Cursor) : Prop where
  block : blockEffort steps cursor ≤ 4 * cursor.rest.length + 1
  commands : commandsEffort steps inBlock cursor ≤ 4 * cursor.rest.length + 3
  command : commandEffort steps inBlock cursor ≤ 4 * cursor.rest.length + 2
  arguments : argumentsEffort steps inBlock cursor ≤ 4 * cursor.rest.length + 3
  argument : argumentEffort steps cursor ≤ 4 * cursor.rest.length + 2
  items : itemsEffort steps cursor ≤ 4 * cursor.rest.length + 3
  quotation : quotationSpan cursor ≤ cursor.rest.length
  span : ∀ condition, cursor.span condition ≤ cursor.rest.length

/-- What every reader does is bounded by the number of characters that are left. -/
theorem comesToEnd (steps : Nat) (inBlock : Bool) (cursor : Cursor) :
    ComesToEnd steps inBlock cursor where
  block := ((affordable steps).block cursor).always
  commands := ((affordable steps).commands inBlock cursor).always
  command := ((affordable steps).command inBlock cursor).always
  arguments := ((affordable steps).arguments inBlock cursor).always
  argument := ((affordable steps).argument cursor).always
  items := ((affordable steps).items cursor).always
  quotation := quotationSpan_le_length cursor
  span := span_le_length cursor

/-- At every cursor in a text the readers move on, come to an end, and refuse what they find only
for reasons that a text can have. So a text is read in a number of steps that its length bounds, and
no check fails that a text always passes. -/
theorem readers_progress (text : List Char) :
    (∀ (steps : Nat) (inBlock : Bool) (cursor : Cursor), cursor.Follows (.ofText text) →
      MovesOn text steps inBlock cursor ∧ ComesToEnd steps inBlock cursor) ∧
    (∀ steps, Tells steps) ∧ parseEffort text ≤ 8 * text.length + 3 ∧
      ∀ error, parse text = .error error → error.fault.Told :=
  ⟨fun steps inBlock cursor reached =>
      ⟨movesOn reached steps inBlock, comesToEnd steps inBlock cursor⟩,
    tells, parseEffort_le text, fun _ => told_of_parse⟩

end CommandScript.Source
