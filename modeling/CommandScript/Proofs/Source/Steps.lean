import CommandScript.Proofs.Source.Grammar

/-!
# Single steps of the reader

Each reader of nested parts looks at the first character behind the blanks and goes on by it. These
lemmas tell one step of each reader: from what the readers of its parts return, what it returns.
-/

namespace CommandScript.Source

open CommandScript.Text

/-! ## Blanks -/

/-- Characters in front that are to be skipped are skipped. -/
theorem rest_skip_of_append {condition : Char → Bool} {cursor : Cursor} {front after : List Char}
    (rest : cursor.rest = front ++ after) (skipped : ∀ c ∈ front, condition c = true)
    (stops : ∀ c ∈ after.head?, condition c = false) : (cursor.skip condition).rest = after := by
  rw [Cursor.skip, rest, List.dropWhile_append_of_pos skipped]
  cases after with
  | nil => rfl
  | cons c others => exact List.dropWhile_cons_of_neg (Bool.eq_false_iff.mp (stops c rfl))

/-- A single blank is skipped. -/
theorem rest_skip_of_cons (condition : Char → Bool) {cursor : Cursor} {blank c : Char}
    {rest : List Char} (front : cursor.rest = blank :: c :: rest) (skipped : condition blank = true)
    (stops : condition c = false) : (cursor.skip condition).rest = c :: rest := by
  refine @rest_skip_of_append _ _ [blank] _ front ?_ ?_
  · rintro d (_ | ⟨_, ⟨⟩⟩)
    exact skipped
  · rintro d ⟨⟩
    exact stops

theorem isSeparator_of_opens {c : Char} (opens : Opens c) : isSeparator c = false := by
  rw [isSeparator, opens.1, Bool.false_or, beq_eq_false_iff_ne]
  exact opens.2.1

theorem isInlineBlank_of_opens {c : Char} (opens : Opens c) : isInlineBlank c = false := by
  rw [isInlineBlank, opens.1, Bool.false_and]

/-- The blanks between arguments may stand between commands as well. -/
theorem isSeparator_of_isInlineBlank {c : Char} (inline : isInlineBlank c = true) :
    isSeparator c = true := by
  rw [isInlineBlank, Bool.and_eq_true] at inline
  rw [isSeparator, inline.1, Bool.true_or]

theorem ne_newline_of_opens {c : Char} (opens : Opens c) : c ≠ '\n' := by
  rintro rfl
  exact absurd opens.1 (by decide)

/-- A semicolon, a line break or a brace ends a command. -/
theorem endsCommand_cons {c : Char} (mark : c = ';' ∨ c = '\n' ∨ c = '}') (rest : List Char) :
    EndsCommand (c :: rest) := by
  rintro d ⟨⟩
  exact mark

/-- What ends a command is no blank between arguments. -/
theorem isInlineBlank_of_endsCommand {after : List Char} (ends : EndsCommand after) :
    ∀ c ∈ after.head?, isInlineBlank c = false := by
  intro c first
  rcases ends c first with rfl | rfl | rfl <;> rfl

/-! ## Arguments -/

/-- The expected character is taken from in front. -/
theorem expect_of_cons {cursor : Cursor} {wanted : Char} {rest : List Char}
    (front : cursor.rest = wanted :: rest) :
    expect wanted cursor = .ok (cursor.advance 1) ∧ (cursor.advance 1).rest = rest := by
  constructor
  · rw [expect, front]
    exact if_pos rfl
  · rw [Cursor.advance, front]
    rfl

/-- What begins with no mark of its own is read as a word. -/
theorem argument_of_word {cursor : Cursor} {c : Char} {rest : List Char} (steps : Nat)
    (front : cursor.rest = c :: rest) (free : isDelimiter c = false) (sign : c ≠ '$') :
    argument (steps + 1) cursor = plainWord cursor := by
  rw [argument, front]
  split
  all_goals first
    | rfl
    | (rename_i shape
       cases shape
       first | exact absurd free (by decide) | exact absurd rfl sign)

/-- A symbol is read as an argument, whatever the steps left. -/
theorem argument_of_symbol (steps : Nat) {cursor : Cursor} {symbol : Symbol} {after : List Char}
    (rest : cursor.rest = symbol.text.toList ++ after) (ends : EndsWord after) :
    ∃ behind, argument (steps + 1) cursor = .ok (.symbol symbol, behind) ∧ behind.rest = after := by
  obtain ⟨c, others, text, starts, -⟩ := symbol_characters symbol
  have front : cursor.rest = c :: (others ++ after) := by rw [rest, text, List.cons_append]
  have free : isDelimiter c = false := by
    apply (isWord_symbol symbol).2 c
    rw [text]
    exact List.mem_cons_self ..
  have sign : c ≠ '$' := by
    rintro rfl
    exact absurd starts Bool.false_ne_true
  rw [argument_of_word steps front free sign]
  exact plainWord_of_symbol rest ends

/-- A numeral is read as the number that it is worth. -/
theorem argument_of_numeral (steps : Nat) {cursor : Cursor} {text after : List Char} {value : Float}
    (shape : Decimal.IsSigned text) (reads : Decimal.scientific? text = some value)
    (rest : cursor.rest = text ++ after) (ends : EndsWord after) :
    ∃ behind, argument (steps + 1) cursor = .ok (.number value, behind) ∧ behind.rest = after := by
  have isWord := isWord_of_isSigned shape
  obtain ⟨c, others, rfl, free⟩ := isWord_cons isWord
  have sign : c ≠ '$' := by
    rintro rfl
    rcases shape.mem (List.mem_cons_self ..) with digit | point | minus
    · exact absurd digit Bool.false_ne_true
    · exact absurd point (by decide)
    · exact absurd minus (by decide)
  rw [argument_of_word steps rest free sign]
  exact plainWord_of_numeral isWord (Decimal.isNumeral_iff.mpr shape) reads rest ends

/-- A brace opens a script. -/
theorem argument_of_brace {cursor : Cursor} {rest : List Char} (steps : Nat)
    (front : cursor.rest = '{' :: rest) :
    argument (steps + 1) cursor =
      (block steps cursor).map fun read => (.script read.1, read.2) := by
  rw [argument, front]
  cases block steps cursor <;> rfl

/-- A bracket opens a list. -/
theorem argument_of_bracket {cursor behind : Cursor} {rest : List Char} {list : List Argument}
    {steps : Nat} (front : cursor.rest = '[' :: rest)
    (read : items steps (cursor.advance 1) = .ok (list, behind)) :
    argument (steps + 1) cursor = .ok (.list list, behind) := by
  rw [argument, front]
  simp only [(expect_of_cons front).1, read, bind, Except.bind]
  rfl

/-- A quote opens a text. -/
theorem argument_of_quote {cursor behind : Cursor} {rest : List Char} {text : String} {steps : Nat}
    (front : cursor.rest = '"' :: rest) (read : quotation cursor = .ok (text, behind)) :
    argument (steps + 1) cursor = .ok (.text text, behind) := by
  rw [argument, front]
  simp only [read, bind, Except.bind]
  rfl

/-- The sign of variables opens a name. -/
theorem argument_of_sign {cursor : Cursor} {rest : List Char} (steps : Nat)
    (front : cursor.rest = '$' :: rest) : argument (steps + 1) cursor = variableWord cursor := by
  rw [argument, front]
  rfl

/-- A reader that may take four steps for each character can take the first one. -/
theorem exists_fewer {cursor : Cursor} {c : Char} {rest : List Char} {steps : Nat}
    (front : cursor.rest = c :: rest) (bound : 4 * cursor.rest.length ≤ steps) :
    ∃ fewer, steps = fewer + 1 ∧ 4 * rest.length + 3 ≤ fewer := by
  rw [front, List.length_cons] at bound
  exact ⟨steps - 1, by omega, by omega⟩

/-! ## Rows of arguments -/

/-- At its bracket a list ends. -/
theorem items_of_bracket {steps : Nat} {cursor : Cursor} {following : List Char}
    (start : (cursor.skip isBlank).rest = ']' :: following) :
    items (steps + 1) cursor = .ok ([], (cursor.skip isBlank).advance 1) := by
  rw [items, start]
  rfl

/-- An item is read in front of the others. -/
theorem items_of_argument {steps : Nat} {cursor behind finish : Cursor} {first : Argument}
    {others : List Argument} {c : Char} {rest : List Char} (opens : Opens c)
    (start : (cursor.skip isBlank).rest = c :: rest)
    (head : argument steps (cursor.skip isBlank) = .ok (first, behind))
    (tail : items steps behind = .ok (others, finish)) :
    items (steps + 1) cursor = .ok (first :: others, finish) := by
  have goesOn : (c == ']') = false := beq_eq_false_iff_ne.mpr opens.2.2.2
  rw [items, start]
  simp only [goesOn, Bool.false_eq_true, ↓reduceIte, head, tail, bind, Except.bind]
  rfl

/-- Where a command ends, its arguments end. Outside a block no brace ends a command. -/
theorem arguments_of_end {inBlock : Bool} {steps : Nat} {cursor : Cursor} {after : List Char}
    (start : (cursor.skip isInlineBlank).rest = after) (ends : EndsCommand after)
    (inside : '}' ∈ after.head? → inBlock = true) :
    arguments (steps + 1) inBlock cursor = .ok ([], cursor.skip isInlineBlank) := by
  rw [arguments, start]
  cases after with
  | nil => rfl
  | cons c rest =>
      have stops : (c == ';' || c == '\n' || (inBlock && c == '}')) = true := by
        rcases ends c rfl with rfl | rfl | rfl
        · rfl
        · rfl
        · rw [inside rfl]
          rfl
      simp only [stops, ↓reduceIte]
      rfl

/-- An argument is read in front of the others. -/
theorem arguments_of_argument {inBlock : Bool} {steps : Nat} {cursor behind finish : Cursor}
    {first : Argument} {others : List Argument} {c : Char} {rest : List Char} (opens : Opens c)
    (start : (cursor.skip isInlineBlank).rest = c :: rest)
    (head : argument steps (cursor.skip isInlineBlank) = .ok (first, behind))
    (tail : arguments steps inBlock behind = .ok (others, finish)) :
    arguments (steps + 1) inBlock cursor = .ok (first :: others, finish) := by
  have goesOn : (c == ';' || c == '\n' || (inBlock && c == '}')) = false := by
    simp [opens.2.1, ne_newline_of_opens opens, opens.2.2.1]
  rw [arguments, start]
  simp only [goesOn, Bool.false_eq_true, ↓reduceIte, head, tail, bind, Except.bind]
  rfl

/-! ## Commands -/

/-- A block in the place of a command, and the blanks of the line behind it. -/
theorem command_of_brace {inBlock : Bool} {steps : Nat} {cursor behind : Cursor}
    {rest : List Char} {script : Script} (front : cursor.rest = '{' :: rest)
    (read : block steps cursor = .ok (script, behind)) :
    command (steps + 1) inBlock cursor =
      .ok (.mk Keyword.block [.script script], behind.skip isInlineBlank) := by
  rw [command, front]
  simp only [read, bind, Except.bind]
  rfl

/-- A word is read as a head, with its arguments. -/
theorem command_of_word {inBlock : Bool} {steps : Nat} {cursor middle behind : Cursor} {c : Char}
    {rest : List Char} {head : Symbol} {args : List Argument} (front : cursor.rest = c :: rest)
    (free : isDelimiter c = false) (readHead : headWord cursor = .ok (head, middle))
    (readArgs : arguments steps inBlock middle = .ok (args, behind)) :
    command (steps + 1) inBlock cursor = .ok (.mk head args, behind) := by
  have brace : c ≠ '{' := by
    rintro rfl
    exact absurd free (by decide)
  rw [command, front]
  split
  · rename_i shape
    exact absurd (List.cons.inj shape).1 brace
  · simp only [readHead, readArgs, bind, Except.bind]
    rfl

/-- What stands behind the commands of a whole source, or behind those of a block. -/
inductive ClosesCommands : Bool → List Char → Prop where
  | source : ClosesCommands false []
  | block (rest : List Char) : ClosesCommands true ('}' :: rest)

/-- The commands of a whole source end where it ends. -/
theorem ClosesCommands.eq_nil {after : List Char} (closes : ClosesCommands false after) :
    after = [] := by
  cases closes
  rfl

/-- Where a block or a source ends, its commands end. -/
theorem commands_of_end {inBlock : Bool} {steps : Nat} {cursor : Cursor} {after : List Char}
    (closes : ClosesCommands inBlock after) (start : (cursor.skip isSeparator).rest = after) :
    commands (steps + 1) inBlock cursor = .ok ([], cursor.skip isSeparator) := by
  rw [commands, start]
  cases closes <;> rfl

/-- A command and those behind it. -/
theorem commands_of_command {inBlock : Bool} {steps : Nat} {cursor behind finish : Cursor}
    {entry : Command} {others : Script} {c : Char} {rest : List Char} (opens : Opens c)
    (start : (cursor.skip isSeparator).rest = c :: rest)
    (first : command steps inBlock (cursor.skip isSeparator) = .ok (entry, behind))
    (checked : afterCommand inBlock entry behind = .ok ())
    (tail : commands steps inBlock behind = .ok (others, finish)) :
    commands (steps + 1) inBlock cursor = .ok (entry :: others, finish) := by
  have goesOn : (inBlock && c == '}') = false := by simp [opens.2.2.1]
  rw [commands, start]
  simp only [goesOn, Bool.false_eq_true, ↓reduceIte, first, checked, tail, bind, Except.bind]
  rfl

/-- Nothing is required behind a bare block. -/
theorem afterCommand_of_isBareBlock {inBlock : Bool} {entry : Command} (cursor : Cursor)
    (bare : isBareBlock entry.head entry.args = true) : afterCommand inBlock entry cursor = .ok () := by
  rw [afterCommand]
  split
  · rfl
  · exact if_pos (.inr (.inr (.inr bare)))

/-- Behind a command that has ended nothing else is asked for. -/
theorem afterCommand_of_end {inBlock : Bool} {entry : Command} {cursor : Cursor}
    (ends : EndsCommand cursor.rest) (inside : '}' ∈ cursor.rest.head? → inBlock = true) :
    afterCommand inBlock entry cursor = .ok () := by
  rw [afterCommand]
  split
  · rfl
  · rename_i c rest front
    rw [front] at ends inside
    apply if_pos
    rcases ends c rfl with semicolon | newline | rfl
    · exact .inl semicolon
    · exact .inr (.inl newline)
    · exact .inr (.inr (.inl ⟨inside rfl, rfl⟩))

/-! ## Whole sources -/

/-- A text that is one block is the script in that block. -/
theorem parse_of_block {text others : List Char} {script : Script} {behind : Cursor}
    (front : ((Cursor.ofText text).skip isBlank).rest = '{' :: others)
    (read : block (stepsFor text.length) ((Cursor.ofText text).skip isBlank) = .ok (script, behind))
    (left : (behind.skip isSeparator).rest = []) : parse text = .ok script := by
  rw [parse]
  simp only [front, read, left, List.isEmpty_nil, ↓reduceIte]

end CommandScript.Source
