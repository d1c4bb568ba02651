import CommandScript.Proofs.Source.Outcomes

/-!
# What the reader accepts is spelled

Whenever the reader takes a part off the front of a text, the grammar spells that part there and
leaves the same text behind it. This holds of every reader with any number of steps: the readers of
nested parts use each other with one step less, so that it goes by induction on the steps.
-/

namespace CommandScript.Source

open CommandScript.Text

/-- What is skipped stands in front of the rest and meets the condition. -/
theorem exists_rest_skip (cursor : Cursor) (condition : Char → Bool) :
    ∃ front, (∀ c ∈ front, condition c = true) ∧
      cursor.rest = front ++ (cursor.skip condition).rest :=
  ⟨cursor.rest.takeWhile condition, fun _ member => List.mem_takeWhile_imp member,
    List.takeWhile_append_dropWhile.symm⟩

/-! ## Words -/

/-- An expected character stood in front. -/
theorem rest_of_expect {wanted : Char} {cursor behind : Cursor}
    (read : expect wanted cursor = .ok behind) : cursor.rest = wanted :: behind.rest := by
  rw [expect] at read
  split at read
  · cases read
  · rename_i found rest front
    split at read
    · rename_i same
      cases read
      rw [Cursor.advance, front, same]
      rfl
    · cases read

/-- An expected character is taken. -/
theorem length_rest_of_expect {wanted : Char} {cursor behind : Cursor}
    (read : expect wanted cursor = .ok behind) :
    behind.rest.length + 1 = cursor.rest.length := by
  rw [rest_of_expect read, List.length_cons]

/-- A word goes on as far as it can. -/
theorem rest_of_word {cursor behind : Cursor} {text : List Char}
    (read : word cursor = .ok (text, behind)) :
    cursor.rest = text ++ behind.rest ∧ EndsWord behind.rest := by
  rw [word] at read
  split at read
  · cases read
  · split at read
    · cases read
    · cases read
      refine ⟨List.takeWhile_append_dropWhile.symm, fun c first => ?_⟩
      have stops := List.head?_dropWhile_not (fun c => !isDelimiter c) cursor.rest
      rw [Cursor.skip, Option.mem_def] at first
      rw [first] at stops
      simpa using stops

/-- A word that is read as a symbol is its text. -/
theorem text_of_symbolAt {position : Position} {text : List Char} {symbol : Symbol}
    (read : symbolAt position text = .ok symbol) : text = symbol.text.toList := by
  rw [symbolAt] at read
  split at read
  · rename_i found spelled
    cases read
    rw [Symbol.ofText?_eq_ok_iff.mp spelled, String.toList_ofList]
  · cases read

/-- A head that is read stood in front, and its word has ended. -/
theorem rest_of_headWord {cursor behind : Cursor} {head : Symbol}
    (read : headWord cursor = .ok (head, behind)) :
    cursor.rest = head.text.toList ++ behind.rest ∧ EndsWord behind.rest := by
  cases headWord_outcome read with
  | head readWord spelled =>
      rw [← text_of_symbolAt spelled]
      exact rest_of_word readWord

/-- A plain word that is read spells an argument. -/
theorem spells_of_plainWord {cursor behind : Cursor} {arg : Argument}
    (read : plainWord cursor = .ok (arg, behind)) :
    SpellsArgument cursor.rest arg behind.rest := by
  cases plainWord_outcome read with
  | number readWord shape =>
      obtain ⟨rest, ends⟩ := rest_of_word readWord
      rw [rest]
      exact .number shape ends
  | symbol readWord spelled =>
      obtain ⟨rest, ends⟩ := rest_of_word readWord
      rw [rest, text_of_symbolAt spelled]
      exact .symbol _ ends

/-- A variable that is read was spelled. -/
theorem spells_of_variableWord {cursor behind : Cursor} {arg : Argument} {rest : List Char}
    (front : cursor.rest = '$' :: rest) (read : variableWord cursor = .ok (arg, behind)) :
    SpellsArgument cursor.rest arg behind.rest := by
  cases variableWord_outcome read with
  | named readWord spelled =>
      obtain ⟨inside, ends⟩ := rest_of_word readWord
      have opened : (cursor.advance 1).rest = rest := by
        rw [Cursor.advance, front]
        rfl
      rw [front, ← opened, inside, text_of_symbolAt spelled]
      exact .reference _ ends

/-! ## Texts between quotes -/

/-- An escape that is read is one of the known ones. -/
theorem mem_escapes_of_unescaped? {code c : Char} (known : unescaped? code = some c) :
    (code, c) ∈ escapes := by
  rw [unescaped?.eq_def] at known
  split at known <;> cases known
  all_goals simp [escapes]

/-- A text that is read was spelled up to its quote. -/
theorem spells_of_textBody {opening position : Position} {before text : List Char} {behind : Cursor}
    (read : textBody opening before position = .ok (text, behind)) :
    ∃ written, before = written ++ '"' :: behind.rest ∧ SpellsCharacters written text := by
  fun_induction textBody opening before position generalizing text behind with
  | case1 => cases read
  | case2 position rest =>
      cases read
      exact ⟨[], rfl, .nil⟩
  | case3 => cases read
  | case4 => cases read
  | case5 code rest position later c known inside cursor readRest =>
      rename_i ih
      cases read
      obtain ⟨written, rfl, spelled⟩ := ih readRest
      exact ⟨'\\' :: code :: written, rfl, .escape (mem_escapes_of_unescaped? known) spelled⟩
  | case6 => cases read
  | case7 c rest position quote single backslash inside cursor readRest ih =>
      cases read
      obtain ⟨written, rfl, spelled⟩ := ih readRest
      refine ⟨c :: written, rfl, .plain quote ?_ spelled⟩
      rintro rfl
      cases shape : written ++ '"' :: cursor.rest with
      | nil => exact single rfl shape
      | cons code others => exact backslash code others rfl shape
  | case8 => cases read

/-- A raw text ends before the first three quotes. -/
theorem spells_of_rawTextBody {opening position : Position} {before text : List Char}
    {behind : Cursor} (read : rawTextBody opening before position = .ok (text, behind)) :
    before = text ++ (rawQuotes ++ behind.rest) ∧
      ∀ front back, text = front ++ back → back ≠ [] → ¬ rawQuotes <+: back ++ rawQuotes := by
  fun_induction rawTextBody opening before position generalizing text behind with
  | case1 => cases read
  | case2 c rest position closes =>
      cases read
      obtain ⟨after, shape⟩ := List.isPrefixOf_iff_prefix.mp closes
      constructor
      · rw [← shape]
        rfl
      · intro front back nothing inhabited
        exact absurd (List.append_eq_nil_iff.mp nothing.symm).2 inhabited
  | case3 c rest position goesOn inside cursor readRest ih =>
      cases read
      obtain ⟨shape, first⟩ := ih readRest
      refine ⟨by rw [shape]; rfl, fun front back split inhabited closes => ?_⟩
      cases front with
      | nil =>
          rw [List.nil_append] at split
          refine goesOn (List.isPrefixOf_iff_prefix.mpr (closes.trans ?_))
          rw [← split, shape, List.cons_append]
          exact ⟨cursor.rest, by simp⟩
      | cons d front =>
          exact first front back (List.cons.inj split).2 inhabited closes
  | case4 => cases read

/-- A quotation that is read was spelled. -/
theorem spells_of_quotation {cursor behind : Cursor} {text : String}
    (read : quotation cursor = .ok (text, behind)) : SpellsText cursor.rest text behind.rest := by
  cases quotation_outcome read with
  | @raw body _ opens read =>
      obtain ⟨after, shape⟩ := opens
      obtain ⟨inside, first⟩ := spells_of_rawTextBody read
      rw [Cursor.advance, ← shape] at inside
      replace inside : after = body ++ (rawQuotes ++ behind.rest) := inside
      rw [← shape, inside]
      exact .raw first
  | text single opened read =>
      obtain ⟨written, inside, spelled⟩ := spells_of_textBody read
      have front := rest_of_expect opened
      rw [inside] at front
      rw [front] at single ⊢
      exact .quoted spelled single

/-! ## Nested parts -/

/-- Separators in front of commands change nothing. -/
theorem SpellsCommands.behind_separators {front before after : List Char} {script : Script}
    (separator : ∀ c ∈ front, isSeparator c = true) (spelled : SpellsCommands before script after) :
    SpellsCommands (front ++ before) script after := by
  have both : ∀ {others : List Char}, (∀ c ∈ others, isSeparator c = true) →
      ∀ c ∈ front ++ others, isSeparator c = true := by
    intro others separates c member
    rcases List.mem_append.mp member with inFront | inOthers
    · exact separator c inFront
    · exact separates c inOthers
  cases spelled with
  | stop separates =>
      rw [← List.append_assoc]
      exact .stop (both separates)
  | block separates head tail =>
      rw [← List.append_assoc]
      exact .block (both separates) head tail
  | call separates head ends arguments tail =>
      rw [← List.append_assoc]
      exact .call (both separates) head ends arguments tail

/-- Whatever the readers of nested parts accept with this many steps is spelled. A command is read
in front of the commands behind it, and commands outside a block are read to the end. -/
structure Accepts (steps : Nat) : Prop where
  block : ∀ {cursor behind : Cursor} {script : Script},
    block steps cursor = .ok (script, behind) → SpellsBlock cursor.rest script behind.rest
  commands : ∀ {inBlock : Bool} {cursor behind : Cursor} {script : Script},
    commands steps inBlock cursor = .ok (script, behind) →
      SpellsCommands cursor.rest script behind.rest ∧ (inBlock = false → behind.rest = [])
  command : ∀ {inBlock : Bool} {cursor behind : Cursor} {entry : Command},
    command steps inBlock cursor = .ok (entry, behind) →
      ∀ {others : Script} {after : List Char}, SpellsCommands behind.rest others after →
        SpellsCommands cursor.rest (entry :: others) after
  arguments : ∀ {inBlock : Bool} {cursor behind : Cursor} {args : List Argument},
    arguments steps inBlock cursor = .ok (args, behind) →
      SpellsArguments cursor.rest args behind.rest
  argument : ∀ {cursor behind : Cursor} {arg : Argument},
    argument steps cursor = .ok (arg, behind) → SpellsArgument cursor.rest arg behind.rest
  items : ∀ {cursor behind : Cursor} {list : List Argument},
    items steps cursor = .ok (list, behind) → SpellsItems cursor.rest list behind.rest

/-- Without steps nothing is accepted. -/
theorem accepts_zero : Accepts 0 where
  block read := by cases read
  commands read := by cases read
  command read := by cases read
  arguments read := by cases read
  argument read := by cases read
  items read := by cases read

section Step

variable {steps : Nat} (less : Accepts steps)
include less

/-- A block that is read was spelled if its commands were. -/
theorem Accepts.block_succ {cursor behind : Cursor} {script : Script}
    (read : Source.block (steps + 1) cursor = .ok (script, behind)) :
    SpellsBlock cursor.rest script behind.rest := by
  cases block_outcome read with
  | whole opened readInside closed =>
      have spelled := (less.commands readInside).1
      rw [rest_of_expect closed] at spelled
      rw [rest_of_expect opened]
      exact .braces spelled

/-- Commands that are read were spelled, and reach to the end outside of blocks. -/
theorem Accepts.commands_succ {inBlock : Bool} {cursor behind : Cursor} {script : Script}
    (read : Source.commands (steps + 1) inBlock cursor = .ok (script, behind)) :
    SpellsCommands cursor.rest script behind.rest ∧ (inBlock = false → behind.rest = []) := by
  obtain ⟨separators, separates, front⟩ := exists_rest_skip cursor isSeparator
  rw [front]
  cases commands_outcome read with
  | ended closes =>
      refine ⟨.stop separates, fun outside => ?_⟩
      rw [outside] at closes
      exact closes.eq_nil
  | more readFirst _ readRest =>
      obtain ⟨spelled, finished⟩ := less.commands readRest
      exact ⟨(less.command readFirst spelled).behind_separators separates, finished⟩

/-- A command that is read was spelled in front of the others. -/
theorem Accepts.command_succ {inBlock : Bool} {cursor behind : Cursor} {entry : Command}
    (read : Source.command (steps + 1) inBlock cursor = .ok (entry, behind)) {others : Script}
    {after : List Char} (tail : SpellsCommands behind.rest others after) :
    SpellsCommands cursor.rest (entry :: others) after := by
  have nothing : ∀ c ∈ ([] : List Char), isSeparator c = true := fun _ member => nomatch member
  cases command_outcome read with
  | @block _ _ middle _ readBlock =>
      obtain ⟨blanks, inline, rest⟩ := exists_rest_skip middle isInlineBlank
      refine SpellsCommands.block nothing (less.block readBlock) ?_
      rw [rest]
      exact tail.behind_separators fun c member => isSeparator_of_isInlineBlank (inline c member)
  | call readHead readArgs =>
      obtain ⟨rest, ends⟩ := rest_of_headWord readHead
      rw [rest]
      exact SpellsCommands.call nothing _ ends (less.arguments readArgs) tail

/-- Arguments that are read were spelled one after the other. -/
theorem Accepts.arguments_succ {inBlock : Bool} {cursor behind : Cursor} {args : List Argument}
    (read : Source.arguments (steps + 1) inBlock cursor = .ok (args, behind)) :
    SpellsArguments cursor.rest args behind.rest := by
  obtain ⟨blanks, inline, front⟩ := exists_rest_skip cursor isInlineBlank
  rw [front]
  cases arguments_outcome read with
  | ended ends _ => exact .stop inline ends
  | more readFirst readRest =>
      exact .argument inline (less.argument readFirst) (less.arguments readRest)

/-- An argument that is read was spelled, whatever character it begins with. -/
theorem Accepts.argument_succ {cursor behind : Cursor} {arg : Argument}
    (read : Source.argument (steps + 1) cursor = .ok (arg, behind)) :
    SpellsArgument cursor.rest arg behind.rest := by
  cases argument_outcome read with
  | block readBlock => exact .script (less.block readBlock)
  | list opened readItems =>
      rw [rest_of_expect opened]
      exact .list (less.items readItems)
  | text readText => exact .text (spells_of_quotation readText)
  | sign front read => exact spells_of_variableWord front read
  | word read => exact spells_of_plainWord read

/-- Items that are read were spelled one after the other. -/
theorem Accepts.items_succ {cursor behind : Cursor} {list : List Argument}
    (read : Source.items (steps + 1) cursor = .ok (list, behind)) :
    SpellsItems cursor.rest list behind.rest := by
  obtain ⟨blanks, blank, front⟩ := exists_rest_skip cursor isBlank
  rw [front]
  cases items_outcome read with
  | ended closes =>
      rw [Cursor.advance, closes]
      exact .close blank
  | more readFirst readRest =>
      exact .item blank (less.argument readFirst) (less.items readRest)

end Step

/-- The readers of nested parts accept only what is spelled. -/
theorem accepts (steps : Nat) : Accepts steps := by
  induction steps with
  | zero => exact accepts_zero
  | succ steps less => exact {
      block := less.block_succ
      commands := less.commands_succ
      command := less.command_succ
      arguments := less.arguments_succ
      argument := less.argument_succ
      items := less.items_succ }

end CommandScript.Source
