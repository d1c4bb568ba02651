import CommandScript.Proofs.Source.Acceptance

/-!
# The reader accepts exactly what is spelled

Whatever the grammar spells the reader takes, and it leaves the text behind it that the grammar
leaves. Four steps for each character suffice, since between two characters the readers of nested
parts use each other at most four times. Together with the soundness of the reader this settles
which texts it accepts and as what; as the reader has one answer for each text, no text spells two
scripts.
-/

namespace CommandScript.Source

open CommandScript.Text

/-! ## Texts between quotes -/

/-- The known escapes are read. -/
theorem unescaped?_of_mem_escapes {code c : Char} (known : (code, c) ∈ escapes) :
    unescaped? code = some c := by
  simp only [escapes, List.mem_cons, Prod.mk.injEq, List.not_mem_nil, or_false] at known
  rcases known with ⟨rfl, rfl⟩ | ⟨rfl, rfl⟩ | ⟨rfl, rfl⟩ | ⟨rfl, rfl⟩ | ⟨rfl, rfl⟩ <;> rfl

/-- A spelled text is read up to its quote. -/
theorem textBody_of_spells {written text : List Char} (spelled : SpellsCharacters written text)
    (opening position : Position) (after : List Char) :
    ∃ behind, textBody opening (written ++ '"' :: after) position = .ok (text, behind) ∧
      behind.rest = after := by
  induction spelled generalizing position with
  | nil => exact ⟨_, rfl, rfl⟩
  | plain quote backslash others ih =>
      obtain ⟨behind, read, left⟩ := ih _
      refine ⟨behind, ?_, left⟩
      rw [List.cons_append, textBody_plain quote backslash, read]
      rfl
  | escape known others ih =>
      obtain ⟨behind, read, left⟩ := ih _
      refine ⟨behind, ?_, left⟩
      rw [List.cons_append, List.cons_append, textBody_escape (unescaped?_of_mem_escapes known),
        read]
      rfl

/-- Three quotes that would begin in a text lie in it and in the three quotes behind it. -/
theorem rawQuotes_of_isPrefixOf {text after : List Char}
    (opens : rawQuotes.isPrefixOf (text ++ (rawQuotes ++ after)) = true) :
    rawQuotes <+: text ++ rawQuotes := by
  have long : rawQuotes.length ≤ (text ++ rawQuotes).length := by
    rw [List.length_append]
    exact Nat.le_add_left ..
  refine List.prefix_of_prefix_length_le (List.isPrefixOf_iff_prefix.mp opens) ?_ long
  exact ⟨after, List.append_assoc ..⟩

/-- A raw text is read up to the first three quotes. -/
theorem rawTextBody_of_first {text : List Char}
    (first : ∀ front back, text = front ++ back → back ≠ [] → ¬ rawQuotes <+: back ++ rawQuotes)
    (opening position : Position) (after : List Char) :
    ∃ behind, rawTextBody opening (text ++ (rawQuotes ++ after)) position = .ok (text, behind) ∧
      behind.rest = after := by
  induction text generalizing position with
  | nil => exact ⟨_, rfl, rfl⟩
  | cons c text ih =>
      obtain ⟨behind, read, left⟩ := ih (fun front back split => first (c :: front) back
        (congrArg (c :: ·) split)) (position.next c)
      refine ⟨behind, ?_, left⟩
      have goesOn : ¬ rawQuotes.isPrefixOf (c :: text ++ (rawQuotes ++ after)) = true :=
        fun opens => first [] (c :: text) rfl (List.cons_ne_nil c text)
          (rawQuotes_of_isPrefixOf opens)
      rw [List.cons_append] at goesOn ⊢
      rw [rawTextBody, if_neg goesOn, read]

/-- A spelled quotation is read. -/
theorem quotation_of_spells {before after : List Char} {text : String}
    (spelled : SpellsText before text after) {cursor : Cursor} (rest : cursor.rest = before) :
    ∃ behind, quotation cursor = .ok (text, behind) ∧ behind.rest = after := by
  cases spelled with
  | @quoted written text after inside single =>
      have notRaw : rawQuotes.isPrefixOf cursor.rest = false := by
        rw [Bool.eq_false_iff, rest]
        exact fun opens => single (List.isPrefixOf_iff_prefix.mp opens)
      obtain ⟨opened, front⟩ := expect_of_cons rest
      obtain ⟨behind, read, left⟩ := textBody_of_spells inside cursor.position
        (cursor.advance 1).position after
      refine ⟨behind, ?_, left⟩
      rw [quotation, notRaw, opened]
      simp only [Bool.false_eq_true, ↓reduceIte, front, read]
  | @raw text after first =>
      have opens : rawQuotes.isPrefixOf cursor.rest = true := by
        rw [rest]
        exact List.isPrefixOf_iff_prefix.mpr (List.prefix_append ..)
      have front : (cursor.advance 3).rest = text ++ (rawQuotes ++ after) := by
        rw [Cursor.advance, rest]
        rfl
      obtain ⟨behind, read, left⟩ := rawTextBody_of_first first cursor.position
        (cursor.advance 3).position after
      refine ⟨behind, ?_, left⟩
      rw [quotation]
      simp only [opens, ↓reduceIte, front, read]

/-! ## Where commands end -/

/-- Where commands are closed there is no separator. -/
theorem ClosesCommands.stops {inBlock : Bool} {after : List Char}
    (closes : ClosesCommands inBlock after) : ∀ c ∈ after.head?, isSeparator c = false := by
  cases closes with
  | source => exact fun c first => nomatch first
  | block rest =>
      rintro c ⟨⟩
      rfl

/-- In front of commands a brace that closes a block stands only in a block. -/
theorem SpellsCommands.inside {inBlock : Bool} {before after : List Char} {script : Script}
    (spelled : SpellsCommands before script after) (closes : ClosesCommands inBlock after)
    (brace : '}' ∈ before.head?) : inBlock = true := by
  cases closes with
  | block rest => rfl
  | source =>
      have notFirst : ∀ {separators others : List Char}, (∀ c ∈ separators, isSeparator c = true) →
          '}' ∉ others.head? → '}' ∉ (separators ++ others).head? := by
        intro separators others separates free first
        cases separators with
        | nil => exact free first
        | cons c rest =>
            cases first
            exact absurd (separates '}' (List.mem_cons_self ..)) Bool.false_ne_true
      cases spelled with
      | stop separates => exact absurd brace (notFirst separates fun first => nomatch first)
      | block separates head tail =>
          obtain ⟨rest, rfl⟩ := head.begins
          refine absurd brace (notFirst separates ?_)
          rintro ⟨⟩
      | call separates head ends arguments tail =>
          obtain ⟨c, rest, front, -, opens⟩ := (isWord_symbol head).begins _
          refine absurd brace (notFirst separates ?_)
          rw [front]
          rintro ⟨⟩
          exact opens.2.2.1 rfl

/-- The blanks of a line are skipped with the separators of which they are some. -/
theorem rest_skip_skip (cursor : Cursor) :
    ((cursor.skip isInlineBlank).skip isSeparator).rest = cursor.rest.dropWhile isSeparator := by
  have separates : ∀ c ∈ cursor.rest.takeWhile isInlineBlank, isSeparator c = true :=
    fun c member => isSeparator_of_isInlineBlank (List.mem_takeWhile_imp member)
  have parts := @List.dropWhile_append_of_pos _ isSeparator _ (cursor.rest.dropWhile isInlineBlank) separates
  rw [List.takeWhile_append_dropWhile] at parts
  exact parts.symm

/-- To skip leaves no more than there is. -/
theorem length_rest_skip_le (cursor : Cursor) (condition : Char → Bool) :
    (cursor.skip condition).rest.length ≤ cursor.rest.length :=
  List.length_dropWhile_le ..

/-! ## Nested parts -/

mutual

/-- An argument that is spelled in front of the cursor is read there. -/
theorem argument_of_spells : ∀ {before after : List Char} {arg : Argument},
    SpellsArgument before arg after → ∀ (steps : Nat) {cursor : Cursor}, cursor.rest = before →
    4 * cursor.rest.length ≤ steps →
    ∃ behind, argument steps cursor = .ok (arg, behind) ∧ behind.rest = after
  | _, after, _, .number shape ends, steps, cursor, rest, bound => by
      obtain ⟨c, others, front, -⟩ := (isWord_of_isSigned shape).begins after
      obtain ⟨fewer, rfl, -⟩ := exists_fewer (rest.trans front) bound
      exact argument_of_numeral fewer shape
        (Decimal.scientific?_of_isNumeral (Decimal.isNumeral_iff.mpr shape)) rest ends
  | _, after, _, .symbol symbol ends, steps, cursor, rest, bound => by
      obtain ⟨c, others, front, -⟩ := (isWord_symbol symbol).begins after
      obtain ⟨fewer, rfl, -⟩ := exists_fewer (rest.trans front) bound
      exact argument_of_symbol fewer rest ends
  | _, after, _, .reference name ends, steps, cursor, rest, bound => by
      obtain ⟨fewer, rfl, -⟩ := exists_fewer rest bound
      rw [argument_of_sign fewer rest]
      exact variableWord_of_rest rest ends
  | _, after, _, .text quotation, steps, cursor, rest, bound => by
      obtain ⟨others, front⟩ := quotation.begins
      obtain ⟨fewer, rfl, -⟩ := exists_fewer (rest.trans front) bound
      obtain ⟨behind, read, left⟩ := quotation_of_spells quotation rest
      exact ⟨behind, argument_of_quote (rest.trans front) read, left⟩
  | _, after, _, .list spelled, steps, cursor, rest, bound => by
      obtain ⟨fewer, rfl, enough⟩ := exists_fewer rest bound
      have inside := (expect_of_cons rest).2
      obtain ⟨behind, read, left⟩ := items_of_spells spelled fewer inside
        (by rw [inside]; omega)
      exact ⟨behind, argument_of_bracket rest read, left⟩
  | _, after, _, .script spelled, steps, cursor, rest, bound => by
      obtain ⟨others, front⟩ := spelled.begins
      obtain ⟨fewer, rfl, enough⟩ := exists_fewer (rest.trans front) bound
      obtain ⟨behind, read, left⟩ := block_of_spells spelled fewer rest bound
      refine ⟨behind, ?_, left⟩
      rw [argument_of_brace fewer (rest.trans front), read]
      rfl

/-- The items of a list that are spelled behind the cursor are read there. -/
theorem items_of_spells : ∀ {before after : List Char} {list : List Argument},
    SpellsItems before list after → ∀ (steps : Nat) {cursor : Cursor}, cursor.rest = before →
    4 * cursor.rest.length + 1 ≤ steps →
    ∃ behind, items steps cursor = .ok (list, behind) ∧ behind.rest = after
  | _, after, _, .close blank, steps, cursor, rest, bound => by
      obtain ⟨fewer, rfl⟩ : ∃ fewer, steps = fewer + 1 := ⟨steps - 1, by omega⟩
      have start : (cursor.skip isBlank).rest = ']' :: after := by
        apply rest_skip_of_append rest blank
        rintro c ⟨⟩
        rfl
      exact ⟨_, items_of_bracket start, (expect_of_cons start).2⟩
  | _, after, _, .item blank head tail, steps, cursor, rest, bound => by
      obtain ⟨fewer, rfl⟩ : ∃ fewer, steps = fewer + 1 := ⟨steps - 1, by omega⟩
      obtain ⟨c, others, front, opens⟩ := head.begins
      have start := rest_skip_of_append rest blank (by rw [front]; rintro d ⟨⟩; exact opens.1)
      have within := length_rest_skip_le cursor isBlank
      have shorter := head.takes.2
      rw [← start] at shorter
      obtain ⟨middle, readFirst, leftFirst⟩ := argument_of_spells head fewer start
        (by omega)
      obtain ⟨behind, readRest, left⟩ := items_of_spells tail fewer leftFirst
        (by rw [leftFirst]; omega)
      exact ⟨behind, items_of_argument opens (start.trans front) readFirst readRest, left⟩

/-- A block that is spelled behind the cursor is read there. -/
theorem block_of_spells : ∀ {before after : List Char} {script : Script},
    SpellsBlock before script after → ∀ (steps : Nat) {cursor : Cursor}, cursor.rest = before →
    4 * cursor.rest.length ≤ steps + 1 →
    ∃ behind, block steps cursor = .ok (script, behind) ∧ behind.rest = after
  | _, after, _, .braces spelled, steps, cursor, rest, bound => by
      obtain ⟨opened, inside⟩ := expect_of_cons rest
      rw [rest, List.length_cons] at bound
      obtain ⟨fewer, rfl⟩ : ∃ fewer, steps = fewer + 1 := ⟨steps - 1, by omega⟩
      obtain ⟨middle, read, left⟩ := commands_of_spells spelled (.block after) fewer
        (cursor.advance 1) (by rw [Cursor.skip, inside]) (by rw [inside]; omega)
      obtain ⟨closed, behind⟩ := expect_of_cons left
      refine ⟨middle.advance 1, ?_, behind⟩
      rw [block, opened]
      simp only [read, closed, bind, Except.bind]
      rfl

/-- The arguments of a command that are spelled behind the cursor are read there. -/
theorem arguments_of_spells : ∀ {before after : List Char} {args : List Argument},
    SpellsArguments before args after → ∀ {inBlock : Bool}, ('}' ∈ after.head? → inBlock = true) →
    ∀ (steps : Nat) {cursor : Cursor}, cursor.rest = before →
    4 * cursor.rest.length + 1 ≤ steps →
    ∃ behind, arguments steps inBlock cursor = .ok (args, behind) ∧ behind.rest = after
  | _, after, _, .stop inline ends, inBlock, inside, steps, cursor, rest, bound => by
      obtain ⟨fewer, rfl⟩ : ∃ fewer, steps = fewer + 1 := ⟨steps - 1, by omega⟩
      have start := rest_skip_of_append rest inline (isInlineBlank_of_endsCommand ends)
      exact ⟨_, arguments_of_end start ends inside, start⟩
  | _, after, _, .argument inline head tail, inBlock, inside, steps, cursor, rest, bound => by
      obtain ⟨fewer, rfl⟩ : ∃ fewer, steps = fewer + 1 := ⟨steps - 1, by omega⟩
      obtain ⟨c, others, front, opens⟩ := head.begins
      have start := rest_skip_of_append rest inline
        (by rw [front]; rintro d ⟨⟩; exact isInlineBlank_of_opens opens)
      have within := length_rest_skip_le cursor isInlineBlank
      have shorter := head.takes.2
      rw [← start] at shorter
      obtain ⟨middle, readFirst, leftFirst⟩ := argument_of_spells head fewer start
        (by omega)
      obtain ⟨behind, readRest, left⟩ := arguments_of_spells tail inside fewer leftFirst
        (by rw [leftFirst]; omega)
      exact ⟨behind, arguments_of_argument opens (start.trans front) readFirst readRest, left⟩

/-- Commands that are spelled behind the cursor are read there. What counts is the text behind the
separators, as the blanks behind a bare block are skipped before its successor is looked for. -/
theorem commands_of_spells : ∀ {before after : List Char} {script : Script},
    SpellsCommands before script after → ∀ {inBlock : Bool}, ClosesCommands inBlock after →
    ∀ (steps : Nat) (cursor : Cursor),
    (cursor.skip isSeparator).rest = before.dropWhile isSeparator →
    4 * cursor.rest.length + 1 ≤ steps →
    ∃ behind, commands steps inBlock cursor = .ok (script, behind) ∧ behind.rest = after
  | _, after, _, .stop separates, inBlock, closes, steps, cursor, rest, bound => by
      obtain ⟨fewer, rfl⟩ : ∃ fewer, steps = fewer + 1 := ⟨steps - 1, by omega⟩
      have start : (cursor.skip isSeparator).rest = after :=
        rest.trans (@rest_skip_of_append _ (Cursor.ofText _) _ _ rfl separates closes.stops)
      exact ⟨_, commands_of_end closes start, start⟩
  | _, after, _, .block separates head tail, inBlock, closes, steps, cursor, rest, bound => by
      obtain ⟨others, front⟩ := head.begins
      have start := rest.trans (@rest_skip_of_append _ (Cursor.ofText _) _ _ rfl separates
        (by rw [front]; rintro d ⟨⟩; rfl))
      have within := length_rest_skip_le cursor isSeparator
      have shorter := head.takes.2
      rw [← start] at shorter
      obtain ⟨fewer, rfl⟩ : ∃ fewer, steps = fewer + 2 := ⟨steps - 2, by omega⟩
      obtain ⟨middle, readFirst, leftFirst⟩ := block_of_spells head fewer start
        (by omega)
      have less := length_rest_skip_le middle isInlineBlank
      rw [leftFirst] at less
      obtain ⟨behind, readRest, left⟩ := commands_of_spells tail closes (fewer + 1)
        (middle.skip isInlineBlank) (by rw [rest_skip_skip, leftFirst]) (by omega)
      refine ⟨behind, ?_, left⟩
      exact commands_of_command (by decide) (start.trans front)
        (command_of_brace (start.trans front) readFirst) (afterCommand_of_isBareBlock _ rfl) readRest
  | _, after, _, @SpellsCommands.call _ behind _ _ _ _ separates head ends arguments tail, inBlock, closes,
      steps, cursor, rest, bound => by
      obtain ⟨c, others, front, free, opens⟩ := (isWord_symbol head).begins behind
      have start := rest.trans (@rest_skip_of_append _ (Cursor.ofText _) _ _ rfl separates
        (by rw [front]; rintro d ⟨⟩; exact isSeparator_of_opens opens))
      have within := length_rest_skip_le cursor isSeparator
      have shorter := (takes_append (isWord_symbol head).1 behind).2
      have within' := arguments.suffix.length_le
      rw [← start] at shorter
      obtain ⟨fewer, rfl⟩ : ∃ fewer, steps = fewer + 2 := ⟨steps - 2, by omega⟩
      have inside := tail.inside closes
      obtain ⟨middle, readHead, leftHead⟩ := headWord_of_rest start ends
      obtain ⟨finish, readArgs, leftArgs⟩ := arguments_of_spells arguments inside fewer
        leftHead (by rw [leftHead]; omega)
      obtain ⟨last, readRest, left⟩ := commands_of_spells tail closes (fewer + 1)
        finish (by rw [Cursor.skip, leftArgs]) (by rw [leftArgs]; omega)
      refine ⟨last, ?_, left⟩
      refine commands_of_command opens (start.trans front)
        (command_of_word (start.trans front) free readHead readArgs) ?_ readRest
      apply afterCommand_of_end
      · rw [leftArgs]
        exact arguments.ends
      · rw [leftArgs]
        exact inside

end

/-! ## Whole sources -/

/-- The only block of a text is read from behind the blanks in front of it. -/
theorem block_of_spellsOneBlock {text : List Char} {script : Script}
    (only : SpellsOneBlock text script) : ∃ others behind,
    ((Cursor.ofText text).skip isBlank).rest = '{' :: others ∧
      block (stepsFor text.length) ((Cursor.ofText text).skip isBlank) = .ok (script, behind) ∧
      (behind.skip isSeparator).rest = [] := by
  cases only with
  | @intro blanks before separators _ blank spelled separates =>
      obtain ⟨others, front⟩ := spelled.begins
      have start : ((Cursor.ofText (blanks ++ before)).skip isBlank).rest = before := by
        apply rest_skip_of_append rfl blank
        rw [front]
        rintro c ⟨⟩
        rfl
      have within : before.length ≤ (blanks ++ before).length := by
        rw [List.length_append]
        exact Nat.le_add_left ..
      obtain ⟨behind, read, left⟩ := block_of_spells spelled
        (stepsFor (blanks ++ before).length) start (by rw [start, stepsFor]; omega)
      refine ⟨others, behind, start.trans front, read, ?_⟩
      refine @rest_skip_of_append _ _ _ [] ?_ separates fun c first => nomatch first
      rw [left, List.append_nil]

/-- A block that is read behind blanks, and has only separators behind it, is the only one. -/
theorem spellsOneBlock_of_block {text : List Char} {script : Script} {steps : Nat} {behind : Cursor}
    (read : block steps ((Cursor.ofText text).skip isBlank) = .ok (script, behind))
    (left : (behind.skip isSeparator).rest = []) : SpellsOneBlock text script := by
  obtain ⟨blanks, blank, front⟩ := exists_rest_skip (Cursor.ofText text) isBlank
  change text = blanks ++ _ at front
  rw [front]
  refine .intro blank ((accepts steps).block read) fun c member => ?_
  rw [Cursor.skip, List.dropWhile_eq_nil_iff] at left
  exact left c member

/-- A text of one block is read as the script in it. -/
theorem parse_of_spellsOneBlock {text : List Char} {script : Script}
    (only : SpellsOneBlock text script) : parse text = .ok script := by
  obtain ⟨others, behind, front, read, left⟩ := block_of_spellsOneBlock only
  exact parse_of_block front read left

/-- Spelled commands are read. -/
theorem parseCommands_of_spells {text : List Char} {script : Script}
    (spelled : SpellsCommands text script []) : parseCommands text = .ok script := by
  have enough : 4 * (Cursor.ofText text).rest.length + 1 ≤ stepsFor text.length := by
    change 4 * text.length + 1 ≤ 4 * text.length + 8
    omega
  obtain ⟨behind, read, -⟩ := commands_of_spells spelled .source _ _ rfl enough
  rw [parseCommands, read]
  rfl

/-- Commands that are read were spelled. -/
theorem spells_of_parseCommands {text : List Char} {script : Script}
    (read : parseCommands text = .ok script) : SpellsCommands text script [] := by
  rw [parseCommands] at read
  cases found : commands (stepsFor text.length) false (Cursor.ofText text) with
  | error error =>
      rw [found] at read
      cases read
  | ok result =>
      rw [found] at read
      cases read
      obtain ⟨spelled, finished⟩ := (accepts _).commands found
      rw [finished rfl] at spelled
      exact spelled

/-- A brace behind blanks is the first character behind the separators. -/
theorem eq_of_dropWhile_isBlank {separators before rest : List Char}
    (separates : ∀ c ∈ separators, isSeparator c = true)
    (begins : ∀ c ∈ before.head?, isBlank c = false)
    (front : (separators ++ before).dropWhile isBlank = '{' :: rest) : before = '{' :: rest := by
  induction separators with
  | nil =>
      cases before with
      | nil => cases front
      | cons c others =>
          rw [List.nil_append, List.dropWhile_cons_of_neg (by simp [begins c rfl])] at front
          exact front
  | cons c separators ih =>
      cases blank : isBlank c with
      | true =>
          rw [List.cons_append, List.dropWhile_cons_of_pos blank] at front
          exact ih (fun d member => separates d (List.mem_cons_of_mem _ member)) front
      | false =>
          rw [List.cons_append, List.dropWhile_cons_of_neg (by simp [blank])] at front
          cases front
          exact absurd (separates '{' (List.mem_cons_self ..)) Bool.false_ne_true

/-- Commands in a text that begins with a block begin with that block. -/
theorem exists_block_of_spellsCommands {text rest : List Char} {script : Script}
    (spelled : SpellsCommands text script [])
    (front : ((Cursor.ofText text).skip isBlank).rest = '{' :: rest) :
    ∃ first behind, SpellsBlock ('{' :: rest) first behind := by
  cases spelled with
  | stop separates =>
      cases @eq_of_dropWhile_isBlank _ [] _ separates (fun c first => nomatch first) front
  | @block _ before middle _ first _ separates head tail =>
      obtain ⟨others, rfl⟩ := head.begins
      refine ⟨first, middle, ?_⟩
      rw [← eq_of_dropWhile_isBlank separates (by rintro c ⟨⟩; rfl) front]
      exact head
  | call separates head ends arguments tail =>
      obtain ⟨c, others, shown, free, opens⟩ := (isWord_symbol head).begins _
      rw [shown] at front
      cases eq_of_dropWhile_isBlank separates (by rintro d ⟨⟩; exact opens.1) front
      exact absurd free (by decide)

/-- A text that is not just one block is read as commands: either it does not begin with a block, or
there is something behind that. -/
theorem parse_of_spellsCommands {text : List Char} {script : Script}
    (spelled : SpellsCommands text script []) (several : ∀ other, ¬ SpellsOneBlock text other) :
    parse text = .ok script := by
  have asCommands := parseCommands_of_spells spelled
  rw [parse]
  split
  · rename_i rest front
    obtain ⟨first, after, block⟩ := exists_block_of_spellsCommands spelled front
    have within := length_rest_skip_le (Cursor.ofText text) isBlank
    obtain ⟨behind, read, -⟩ := block_of_spells block (stepsFor text.length) front (by
      change _ ≤ text.length at within
      rw [stepsFor]
      omega)
    rw [read]
    dsimp only
    split
    · rename_i finished
      exact absurd (spellsOneBlock_of_block read (List.isEmpty_iff.mp finished)) (several first)
    · exact asCommands
  · exact asCommands

/-- A spelled script is read. -/
theorem parse_of_spells {text : List Char} {script : Script} (spelled : Spells text script) :
    parse text = .ok script := by
  cases spelled with
  | block only => exact parse_of_spellsOneBlock only
  | commands spelled several => exact parse_of_spellsCommands spelled several

/-- If a text is not just one block, what it is read as it is read as commands. -/
theorem parseCommands_of_parse {text : List Char} {script : Script} (read : parse text = .ok script)
    (several : ∀ other, ¬ SpellsOneBlock text other) : parseCommands text = .ok script := by
  rw [parse] at read
  split at read
  · split at read
    · cases read
    · rename_i first behind readBlock
      split at read
      · rename_i finished
        exact absurd (spellsOneBlock_of_block readBlock (List.isEmpty_iff.mp finished))
          (several first)
      · exact read
  · exact read

/-- A script that is read was spelled. -/
theorem spells_of_parse {text : List Char} {script : Script} (read : parse text = .ok script) :
    Spells text script := by
  by_cases single : ∃ other, SpellsOneBlock text other
  · obtain ⟨other, only⟩ := single
    cases read.symm.trans (parse_of_spellsOneBlock only)
    exact .block only
  · have several : ∀ other, ¬ SpellsOneBlock text other := fun other only => single ⟨other, only⟩
    exact .commands (spells_of_parseCommands (parseCommands_of_parse read several)) several

/-- No text spells two scripts. -/
theorem Spells.unique {text : List Char} {script other : Script} (spelled : Spells text script)
    (spelledOther : Spells text other) : script = other := by
  have read := parse_of_spells spelled
  rw [parse_of_spells spelledOther] at read
  exact (Except.ok.inj read).symm

/-- The reader accepts exactly the texts that the grammar spells, each as the script that it
spells. -/
theorem parse_eq_ok_iff (text : String) (script : Script) :
    Script.parse text = .ok script ↔ Spells text.toList script :=
  ⟨spells_of_parse, parse_of_spells⟩

end CommandScript.Source
