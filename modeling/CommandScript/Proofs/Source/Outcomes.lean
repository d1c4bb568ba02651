import CommandScript.Proofs.Source.Steps

/-!
# What a reader has done

A reader calls the readers of its parts, those of nested parts with one step less, and it fails as
soon as one of them fails. For each reader a relation lists how this can end: which parts have been
read, and, where the reader fails, which part has failed behind them. What is proved of every
result, of an accepted text as of a refused one, goes by these cases.
-/

namespace CommandScript.Source

open CommandScript.Text

/-! ## Words -/

/-- How the reader of the head of a command ends. -/
inductive HeadOutcome (cursor : Cursor) : Except ParseError (Symbol × Cursor) → Prop
  | badWord {error : ParseError} (refused : word cursor = .error error) :
      HeadOutcome cursor (.error error)
  | numeral (text : List Char) : HeadOutcome cursor (cursor.refuse (.numberAsHead text))
  | badSymbol {text : List Char} {error : ParseError}
      (refused : symbolAt cursor.position text = .error error) : HeadOutcome cursor (.error error)
  | head {text : List Char} {behind : Cursor} {head : Symbol}
      (readWord : word cursor = .ok (text, behind))
      (spelled : symbolAt cursor.position text = .ok head) : HeadOutcome cursor (.ok (head, behind))

/-- The reader of heads ends in no other way. -/
theorem headWord_outcome {cursor : Cursor} {result : Except ParseError (Symbol × Cursor)}
    (read : headWord cursor = result) : HeadOutcome cursor result := by
  subst read
  rw [headWord]
  cases readWord : word cursor with
  | error error => exact .badWord readWord
  | ok found =>
      simp only [bind, Except.bind]
      split
      · exact .numeral found.1
      · cases spelled : symbolAt cursor.position found.1 with
        | error error => exact .badSymbol spelled
        | ok head => exact .head readWord spelled

/-- How the reader of a number or a symbol ends. What has the shape of a numeral is a number. -/
inductive PlainOutcome (cursor : Cursor) : Except ParseError (Argument × Cursor) → Prop
  | badWord {error : ParseError} (refused : word cursor = .error error) :
      PlainOutcome cursor (.error error)
  | number {text : List Char} {behind : Cursor} (readWord : word cursor = .ok (text, behind))
      (shape : Decimal.IsSigned text) :
      PlainOutcome cursor (.ok (.number ((Decimal.Numeral.cut text).value 0), behind))
  | badSymbol {text : List Char} {error : ParseError}
      (refused : symbolAt cursor.position text = .error error) : PlainOutcome cursor (.error error)
  | symbol {text : List Char} {behind : Cursor} {symbol : Symbol}
      (readWord : word cursor = .ok (text, behind))
      (spelled : symbolAt cursor.position text = .ok symbol) :
      PlainOutcome cursor (.ok (.symbol symbol, behind))

/-- The reader of plain words ends in no other way. -/
theorem plainWord_outcome {cursor : Cursor} {result : Except ParseError (Argument × Cursor)}
    (read : plainWord cursor = result) : PlainOutcome cursor result := by
  subst read
  rw [plainWord]
  cases readWord : word cursor with
  | error error => exact .badWord readWord
  | ok found =>
      simp only [bind, Except.bind]
      split
      · rename_i numeral
        rw [Decimal.scientific?_of_isNumeral numeral]
        exact .number readWord (Decimal.isNumeral_iff.mp numeral)
      · cases spelled : symbolAt cursor.position found.1 with
        | error error => exact .badSymbol spelled
        | ok symbol => exact .symbol readWord spelled

/-- How the reader of a variable ends. -/
inductive VariableOutcome (cursor : Cursor) : Except ParseError (Argument × Cursor) → Prop
  | badWord {error : ParseError} (refused : word (cursor.advance 1) = .error error) :
      VariableOutcome cursor (.error error)
  | badName {text : List Char} {error : ParseError}
      (refused : symbolAt cursor.position text = .error error) :
      VariableOutcome cursor (.error error)
  | named {text : List Char} {behind : Cursor} {name : Symbol}
      (readWord : word (cursor.advance 1) = .ok (text, behind))
      (spelled : symbolAt cursor.position text = .ok name) :
      VariableOutcome cursor (.ok (.variable name, behind))

/-- The reader of variables ends in no other way. -/
theorem variableWord_outcome {cursor : Cursor} {result : Except ParseError (Argument × Cursor)}
    (read : variableWord cursor = result) : VariableOutcome cursor result := by
  subst read
  rw [variableWord]
  cases readWord : word (cursor.advance 1) with
  | error error => exact .badWord readWord
  | ok found =>
      simp only [bind, Except.bind]
      cases spelled : symbolAt cursor.position found.1 with
      | error error => exact .badName spelled
      | ok name => exact .named readWord spelled

/-! ## Texts between quotes -/

/-- How the reader of a text in quotes ends. -/
inductive QuotationOutcome (cursor : Cursor) : Except ParseError (String × Cursor) → Prop
  | badRaw {error : ParseError} (refused : rawTextBody cursor.position (cursor.advance 3).rest
      (cursor.advance 3).position = .error error) : QuotationOutcome cursor (.error error)
  | raw {text : List Char} {behind : Cursor} (opens : rawQuotes <+: cursor.rest)
      (read : rawTextBody cursor.position (cursor.advance 3).rest (cursor.advance 3).position =
        .ok (text, behind)) : QuotationOutcome cursor (.ok (String.ofList text, behind))
  | unopened {error : ParseError} (missing : expect '"' cursor = .error error) :
      QuotationOutcome cursor (.error error)
  | badText {inside : Cursor} {error : ParseError} (opened : expect '"' cursor = .ok inside)
      (refused : textBody cursor.position inside.rest inside.position = .error error) :
      QuotationOutcome cursor (.error error)
  | text {inside behind : Cursor} {text : List Char} (single : ¬ rawQuotes <+: cursor.rest)
      (opened : expect '"' cursor = .ok inside)
      (read : textBody cursor.position inside.rest inside.position = .ok (text, behind)) :
      QuotationOutcome cursor (.ok (String.ofList text, behind))

/-- The reader of quotations ends in no other way. -/
theorem quotation_outcome {cursor : Cursor} {result : Except ParseError (String × Cursor)}
    (read : quotation cursor = result) : QuotationOutcome cursor result := by
  subst read
  rw [quotation]
  dsimp only
  by_cases opens : rawQuotes.isPrefixOf cursor.rest = true
  · rw [if_pos opens]
    cases read : rawTextBody cursor.position (cursor.advance 3).rest (cursor.advance 3).position with
    | error error => exact .badRaw read
    | ok found => exact .raw (List.isPrefixOf_iff_prefix.mp opens) read
  · rw [if_neg opens]
    cases opened : expect '"' cursor with
    | error error => exact .unopened opened
    | ok inside =>
        dsimp only
        cases read : textBody cursor.position inside.rest inside.position with
        | error error => exact .badText opened read
        | ok found =>
            exact .text (fun both => opens (List.isPrefixOf_iff_prefix.mpr both)) opened read

/-! ## Blocks -/

/-- How the reader of a block ends. -/
inductive BlockOutcome (steps : Nat) (cursor : Cursor) : Except ParseError (Script × Cursor) → Prop
  | unopened {error : ParseError} (missing : expect '{' cursor = .error error) :
      BlockOutcome steps cursor (.error error)
  | badInside {inside : Cursor} {error : ParseError} (opened : expect '{' cursor = .ok inside)
      (refused : commands steps true inside = .error error) :
      BlockOutcome steps cursor (.error error)
  | unclosed {inside closing : Cursor} {script : Script} {error : ParseError}
      (opened : expect '{' cursor = .ok inside)
      (readInside : commands steps true inside = .ok (script, closing))
      (missing : expect '}' closing = .error error) :
      BlockOutcome steps cursor (.error error)
  | whole {inside closing behind : Cursor} {script : Script}
      (opened : expect '{' cursor = .ok inside)
      (readInside : commands steps true inside = .ok (script, closing))
      (closed : expect '}' closing = .ok behind) :
      BlockOutcome steps cursor (.ok (script, behind))

/-- The reader of blocks ends in no other way. -/
theorem block_outcome {steps : Nat} {cursor : Cursor} {result : Except ParseError (Script × Cursor)}
    (read : block (steps + 1) cursor = result) : BlockOutcome steps cursor result := by
  subst read
  rw [block]
  cases opened : expect '{' cursor with
  | error error => exact .unopened opened
  | ok inside =>
      cases readInside : commands steps true inside with
      | error error =>
          simp only [bind, Except.bind, readInside]
          exact .badInside opened readInside
      | ok found =>
          simp only [bind, Except.bind, readInside]
          cases closed : expect '}' found.2 with
          | error error => exact .unclosed opened readInside closed
          | ok behind => exact .whole opened readInside closed

/-! ## Commands -/

/-- How the reader of the commands of a block, or of a whole source, ends. -/
inductive CommandsOutcome (steps : Nat) (inBlock : Bool) (cursor : Cursor) :
    Except ParseError (Script × Cursor) → Prop
  | ended (closes : ClosesCommands inBlock (cursor.skip isSeparator).rest) :
      CommandsOutcome steps inBlock cursor (.ok ([], cursor.skip isSeparator))
  | unterminated (inside : inBlock = true) (nothing : (cursor.skip isSeparator).rest = []) :
      CommandsOutcome steps inBlock cursor ((cursor.skip isSeparator).refuse .unterminatedBlock)
  | badFirst {error : ParseError}
      (refused : command steps inBlock (cursor.skip isSeparator) = .error error) :
      CommandsOutcome steps inBlock cursor (.error error)
  | badEnd {first : Command} {middle : Cursor} {error : ParseError}
      (readFirst : command steps inBlock (cursor.skip isSeparator) = .ok (first, middle))
      (refused : afterCommand inBlock first middle = .error error) :
      CommandsOutcome steps inBlock cursor (.error error)
  | badRest {first : Command} {middle : Cursor} {error : ParseError}
      (readFirst : command steps inBlock (cursor.skip isSeparator) = .ok (first, middle))
      (checked : afterCommand inBlock first middle = .ok ())
      (refused : commands steps inBlock middle = .error error) :
      CommandsOutcome steps inBlock cursor (.error error)
  | more {first : Command} {others : Script} {middle finish : Cursor}
      (readFirst : command steps inBlock (cursor.skip isSeparator) = .ok (first, middle))
      (checked : afterCommand inBlock first middle = .ok ())
      (readRest : commands steps inBlock middle = .ok (others, finish)) :
      CommandsOutcome steps inBlock cursor (.ok (first :: others, finish))

/-- The reader of commands ends in no other way. -/
theorem commands_outcome {steps : Nat} {inBlock : Bool} {cursor : Cursor}
    {result : Except ParseError (Script × Cursor)}
    (read : commands (steps + 1) inBlock cursor = result) :
    CommandsOutcome steps inBlock cursor result := by
  subst read
  rw [commands]
  split
  · rename_i nothing
    cases inBlock with
    | true => exact .unterminated rfl nothing
    | false => exact .ended (nothing ▸ .source)
  · rename_i c rest front
    split
    · rename_i closing
      rw [Bool.and_eq_true, beq_iff_eq] at closing
      obtain ⟨rfl, rfl⟩ := closing
      exact .ended (front ▸ .block rest)
    · cases readFirst : command steps inBlock (cursor.skip isSeparator) with
      | error error => exact .badFirst readFirst
      | ok found =>
          simp only [bind, Except.bind]
          cases checked : afterCommand inBlock found.1 found.2 with
          | error error => exact .badEnd readFirst checked
          | ok _ =>
              simp only
              cases readRest : commands steps inBlock found.2 with
              | error error => exact .badRest readFirst checked readRest
              | ok others => exact .more readFirst checked readRest

/-- How the reader of a command ends. -/
inductive CommandOutcome (steps : Nat) (inBlock : Bool) (cursor : Cursor) :
    Except ParseError (Command × Cursor) → Prop
  | badBlock {rest : List Char} {error : ParseError} (front : cursor.rest = '{' :: rest)
      (refused : block steps cursor = .error error) :
      CommandOutcome steps inBlock cursor (.error error)
  | block {rest : List Char} {script : Script} {middle : Cursor}
      (front : cursor.rest = '{' :: rest) (readBlock : block steps cursor = .ok (script, middle)) :
      CommandOutcome steps inBlock cursor
        (.ok (.mk Keyword.block [.script script], middle.skip isInlineBlank))
  | badHead {error : ParseError} (refused : headWord cursor = .error error) :
      CommandOutcome steps inBlock cursor (.error error)
  | badArguments {head : Symbol} {middle : Cursor} {error : ParseError}
      (readHead : headWord cursor = .ok (head, middle))
      (refused : arguments steps inBlock middle = .error error) :
      CommandOutcome steps inBlock cursor (.error error)
  | call {head : Symbol} {args : List Argument} {middle finish : Cursor}
      (readHead : headWord cursor = .ok (head, middle))
      (readArgs : arguments steps inBlock middle = .ok (args, finish)) :
      CommandOutcome steps inBlock cursor (.ok (.mk head args, finish))

/-- The reader of single commands ends in no other way. -/
theorem command_outcome {steps : Nat} {inBlock : Bool} {cursor : Cursor}
    {result : Except ParseError (Command × Cursor)}
    (read : command (steps + 1) inBlock cursor = result) :
    CommandOutcome steps inBlock cursor result := by
  subst read
  rw [command.eq_def]
  dsimp only
  split
  · rename_i rest front
    cases readBlock : Source.block steps cursor with
    | error error => exact .badBlock front readBlock
    | ok found => exact .block front readBlock
  · cases readHead : headWord cursor with
    | error error => exact .badHead readHead
    | ok found =>
        simp only [bind, Except.bind]
        cases readArgs : arguments steps inBlock found.2 with
        | error error => exact .badArguments readHead readArgs
        | ok args => exact .call readHead readArgs

/-! ## Arguments -/

/-- How the reader of the arguments of a command ends. -/
inductive ArgumentsOutcome (steps : Nat) (inBlock : Bool) (cursor : Cursor) :
    Except ParseError (List Argument × Cursor) → Prop
  | ended (ends : EndsCommand (cursor.skip isInlineBlank).rest)
      (inside : '}' ∈ (cursor.skip isInlineBlank).rest.head? → inBlock = true) :
      ArgumentsOutcome steps inBlock cursor (.ok ([], cursor.skip isInlineBlank))
  | badFirst {error : ParseError}
      (refused : argument steps (cursor.skip isInlineBlank) = .error error) :
      ArgumentsOutcome steps inBlock cursor (.error error)
  | badRest {first : Argument} {middle : Cursor} {error : ParseError}
      (readFirst : argument steps (cursor.skip isInlineBlank) = .ok (first, middle))
      (refused : arguments steps inBlock middle = .error error) :
      ArgumentsOutcome steps inBlock cursor (.error error)
  | more {first : Argument} {others : List Argument} {middle finish : Cursor}
      (readFirst : argument steps (cursor.skip isInlineBlank) = .ok (first, middle))
      (readRest : arguments steps inBlock middle = .ok (others, finish)) :
      ArgumentsOutcome steps inBlock cursor (.ok (first :: others, finish))

/-- The reader of arguments ends in no other way. -/
theorem arguments_outcome {steps : Nat} {inBlock : Bool} {cursor : Cursor}
    {result : Except ParseError (List Argument × Cursor)}
    (read : arguments (steps + 1) inBlock cursor = result) :
    ArgumentsOutcome steps inBlock cursor result := by
  subst read
  rw [arguments]
  split
  · rename_i nothing
    refine .ended ?_ ?_ <;> rw [nothing]
    · rintro c ⟨⟩
    · rintro ⟨⟩
  · rename_i c rest front
    split
    · rename_i stops
      simp only [Bool.or_eq_true, Bool.and_eq_true, beq_iff_eq] at stops
      refine .ended ?_ ?_ <;> rw [front]
      · exact endsCommand_cons (or_assoc.mp (stops.imp_right And.right)) rest
      · rintro ⟨⟩
        simpa using stops
    · cases readFirst : argument steps (cursor.skip isInlineBlank) with
      | error error => exact .badFirst readFirst
      | ok found =>
          simp only [bind, Except.bind]
          cases readRest : arguments steps inBlock found.2 with
          | error error => exact .badRest readFirst readRest
          | ok others => exact .more readFirst readRest

/-- How the reader of an argument ends. -/
inductive ArgumentOutcome (steps : Nat) (cursor : Cursor) :
    Except ParseError (Argument × Cursor) → Prop
  | badBlock {rest : List Char} {error : ParseError} (front : cursor.rest = '{' :: rest)
      (refused : block steps cursor = .error error) : ArgumentOutcome steps cursor (.error error)
  | block {script : Script} {finish : Cursor} (readBlock : block steps cursor = .ok (script, finish)) :
      ArgumentOutcome steps cursor (.ok (.script script, finish))
  | badItems {inside : Cursor} {error : ParseError} (opened : expect '[' cursor = .ok inside)
      (refused : items steps inside = .error error) : ArgumentOutcome steps cursor (.error error)
  | list {inside finish : Cursor} {list : List Argument} (opened : expect '[' cursor = .ok inside)
      (readItems : items steps inside = .ok (list, finish)) :
      ArgumentOutcome steps cursor (.ok (.list list, finish))
  | badText {rest : List Char} {error : ParseError} (front : cursor.rest = '"' :: rest)
      (refused : quotation cursor = .error error) : ArgumentOutcome steps cursor (.error error)
  | text {text : String} {finish : Cursor} (readText : quotation cursor = .ok (text, finish)) :
      ArgumentOutcome steps cursor (.ok (.text text, finish))
  | sign {rest : List Char} {result : Except ParseError (Argument × Cursor)}
      (front : cursor.rest = '$' :: rest) (read : variableWord cursor = result) :
      ArgumentOutcome steps cursor result
  | mark (c : Char) : ArgumentOutcome steps cursor (cursor.refuse (.unexpected c))
  | word {result : Except ParseError (Argument × Cursor)} (read : plainWord cursor = result) :
      ArgumentOutcome steps cursor result

/-- The reader of single arguments ends in no other way. -/
theorem argument_outcome {steps : Nat} {cursor : Cursor}
    {result : Except ParseError (Argument × Cursor)}
    (read : argument (steps + 1) cursor = result) : ArgumentOutcome steps cursor result := by
  subst read
  rw [argument.eq_def]
  dsimp only
  split
  · rename_i rest front
    cases readBlock : Source.block steps cursor with
    | error error => exact .badBlock front readBlock
    | ok found => exact .block readBlock
  · rename_i rest front
    have opened := (expect_of_cons front).1
    rw [opened]
    simp only [bind, Except.bind]
    cases readItems : items steps (cursor.advance 1) with
    | error error => exact .badItems opened readItems
    | ok found => exact .list opened readItems
  · rename_i rest front
    cases readText : quotation cursor with
    | error error => exact .badText front readText
    | ok found => exact .text readText
  · rename_i rest front
    exact .sign front rfl
  · exact .mark '}'
  · exact .mark ']'
  · exact .word rfl

/-- How the reader of the items of a list ends. -/
inductive ItemsOutcome (steps : Nat) (cursor : Cursor) :
    Except ParseError (List Argument × Cursor) → Prop
  | ended {rest : List Char} (front : (cursor.skip isBlank).rest = ']' :: rest) :
      ItemsOutcome steps cursor (.ok ([], (cursor.skip isBlank).advance 1))
  | unterminated (nothing : (cursor.skip isBlank).rest = []) :
      ItemsOutcome steps cursor ((cursor.skip isBlank).refuse .unterminatedList)
  | badFirst {error : ParseError} (refused : argument steps (cursor.skip isBlank) = .error error) :
      ItemsOutcome steps cursor (.error error)
  | badRest {first : Argument} {middle : Cursor} {error : ParseError}
      (readFirst : argument steps (cursor.skip isBlank) = .ok (first, middle))
      (refused : items steps middle = .error error) : ItemsOutcome steps cursor (.error error)
  | more {first : Argument} {others : List Argument} {middle finish : Cursor}
      (readFirst : argument steps (cursor.skip isBlank) = .ok (first, middle))
      (readRest : items steps middle = .ok (others, finish)) :
      ItemsOutcome steps cursor (.ok (first :: others, finish))

/-- The reader of items ends in no other way. -/
theorem items_outcome {steps : Nat} {cursor : Cursor}
    {result : Except ParseError (List Argument × Cursor)}
    (read : items (steps + 1) cursor = result) : ItemsOutcome steps cursor result := by
  subst read
  rw [items]
  split
  · rename_i nothing
    exact .unterminated nothing
  · rename_i c rest front
    split
    · rename_i closes
      rw [eq_of_beq closes] at front
      exact .ended front
    · cases readFirst : argument steps (cursor.skip isBlank) with
      | error error => exact .badFirst readFirst
      | ok found =>
          simp only [bind, Except.bind]
          cases readRest : items steps found.2 with
          | error error => exact .badRest readFirst readRest
          | ok others => exact .more readFirst readRest

end CommandScript.Source
