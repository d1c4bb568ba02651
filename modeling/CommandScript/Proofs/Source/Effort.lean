import CommandScript.Proofs.Source.Advance

/-!
# How much a reader does

The effort of a reader is the number of readers of nested parts that it uses, itself among them,
and of characters that it passes, whether it accepts or refuses what it finds. Every reader that is
used either passes a character soon or is the last one in its place. So four for each character that
is left, and a few more, always pay for the effort, and a reader that accepts is paid with four for
each character that it has taken.
-/

namespace CommandScript.Source

open CommandScript.Text

variable {α β : Type}

/-! ## Characters -/

/-- The number of characters in front of the cursor that satisfy a condition. -/
def Cursor.span (cursor : Cursor) (condition : Char → Bool) : Nat :=
  (cursor.rest.takeWhile condition).length

/-- The number of characters of the word at the cursor. -/
def wordSpan (cursor : Cursor) : Nat :=
  cursor.span fun c => !isDelimiter c

/-- The number of characters that the reader of a text passes, up to the quote that closes it or to
where it gives up. -/
def textSpan : List Char → Nat
  | [] => 0
  | '"' :: _ => 1
  | ['\\'] => 1
  | '\\' :: c :: rest =>
    match unescaped? c with
    | none => 2
    | some _ => textSpan rest + 2
  | _ :: rest => textSpan rest + 1

/-- The number of characters that the reader of a raw text passes. -/
def rawTextSpan : List Char → Nat
  | [] => 0
  | c :: rest => if rawQuotes.isPrefixOf (c :: rest) then 3 else rawTextSpan rest + 1

/-- What is done behind a part that was read; nothing if it was refused. -/
def effortBehind (read : Except ParseError α) (next : α → Nat) : Nat :=
  match read with
  | .ok value => next value
  | .error _ => 0

/-- The number of characters that the reader of a text in quotes or of a raw text passes. -/
def quotationSpan (cursor : Cursor) : Nat :=
  if rawQuotes.isPrefixOf cursor.rest then 3 + rawTextSpan (cursor.advance 3).rest
  else effortBehind (expect '"' cursor) fun inside => 1 + textSpan inside.rest

/-! ## Nested parts -/

mutual

/-- The effort of reading a block. -/
def blockEffort : Nat → Cursor → Nat
  | 0, _ => 0
  | steps + 1, cursor =>
    1 + effortBehind (expect '{' cursor) fun inside =>
      1 + (commandsEffort steps true inside + effortBehind (commands steps true inside) fun read =>
        effortBehind (expect '}' read.2) fun _ => 1)

/-- The effort of reading commands. -/
def commandsEffort : Nat → Bool → Cursor → Nat
  | 0, _, _ => 0
  | steps + 1, inBlock, cursor =>
    let start := cursor.skip isSeparator
    1 + (cursor.span isSeparator +
      match start.rest with
      | [] => 0
      | c :: _ =>
        if inBlock && c == '}' then 0
        else
          commandEffort steps inBlock start + effortBehind (command steps inBlock start) fun read =>
            effortBehind (afterCommand inBlock read.1 read.2) fun _ =>
              commandsEffort steps inBlock read.2)

/-- The effort of reading one command. -/
def commandEffort : Nat → Bool → Cursor → Nat
  | 0, _, _ => 0
  | steps + 1, inBlock, cursor =>
    1 +
      match cursor.rest with
      | '{' :: _ =>
        blockEffort steps cursor + effortBehind (block steps cursor) fun read =>
          read.2.span isInlineBlank
      | _ =>
        wordSpan cursor + effortBehind (headWord cursor) fun read =>
          argumentsEffort steps inBlock read.2

/-- The effort of reading the arguments of a command. -/
def argumentsEffort : Nat → Bool → Cursor → Nat
  | 0, _, _ => 0
  | steps + 1, inBlock, cursor =>
    let start := cursor.skip isInlineBlank
    1 + (cursor.span isInlineBlank +
      match start.rest with
      | [] => 0
      | c :: _ =>
        if c == ';' || c == '\n' || (inBlock && c == '}') then 0
        else
          argumentEffort steps start + effortBehind (argument steps start) fun read =>
            argumentsEffort steps inBlock read.2)

/-- The effort of reading one argument. -/
def argumentEffort : Nat → Cursor → Nat
  | 0, _ => 0
  | steps + 1, cursor =>
    1 +
      match cursor.rest with
      | '{' :: _ => blockEffort steps cursor
      | '[' :: _ => effortBehind (expect '[' cursor) fun inside => 1 + itemsEffort steps inside
      | '"' :: _ => quotationSpan cursor
      | '$' :: _ => 1 + wordSpan (cursor.advance 1)
      | '}' :: _ => 0
      | ']' :: _ => 0
      | _ => wordSpan cursor

/-- The effort of reading the items of a list. -/
def itemsEffort : Nat → Cursor → Nat
  | 0, _ => 0
  | steps + 1, cursor =>
    let start := cursor.skip isBlank
    1 + (cursor.span isBlank +
      match start.rest with
      | [] => 0
      | c :: _ =>
        if c == ']' then 1
        else
          argumentEffort steps start + effortBehind (argument steps start) fun read =>
            itemsEffort steps read.2)

end

/-! ## What pays for the effort -/

/-- Four for each character that is left at the cursor, and a credit, pay for the effort. If the
reader accepts, then four for each character that it has taken, and one, pay for it and are not all
needed. -/
structure Affords (effort credit saving : Nat) (cursor : Cursor)
    (result : Except ParseError (α × Cursor)) : Prop where
  always : effort ≤ 4 * cursor.rest.length + credit
  taken : ∀ {value : α} {behind : Cursor}, result = .ok (value, behind) →
    effort + saving + 4 * behind.rest.length ≤ 4 * cursor.rest.length + 1

section Payment

variable {effort credit saving : Nat} {cursor middle : Cursor}
  {result : Except ParseError (α × Cursor)}

/-- An error costs nothing. -/
theorem affords_error (credit saving : Nat) (cursor : Cursor) (error : ParseError) :
    Affords 0 credit saving cursor (.error error : Except ParseError (α × Cursor)) where
  always := Nat.zero_le _
  taken := nofun

/-- A result where the cursor stands costs nothing. -/
theorem affords_pure (credit : Nat) (cursor : Cursor) (value : α) :
    Affords 0 credit 1 cursor (.ok (value, cursor)) where
  always := Nat.zero_le _
  taken read := by
    cases read
    omega

/-- A reader that uses no other one passes as many characters as it takes. -/
theorem affords_of_span (within : effort ≤ cursor.rest.length)
    (takes : ∀ {value : α} {behind : Cursor}, result = .ok (value, behind) →
      effort + behind.rest.length = cursor.rest.length ∧ 1 ≤ effort) :
    Affords effort 0 4 cursor result where
  always := by omega
  taken read := by
    have := takes read
    omega

/-- More credit affords the same, and less may be saved. -/
theorem Affords.weaken (affords : Affords effort credit saving cursor result) {more less : Nat}
    (credits : credit ≤ more) (savings : less ≤ saving) :
    Affords effort more less cursor result where
  always := by
    have := affords.always
    omega
  taken read := by
    have := affords.taken read
    omega

/-- The reader itself counts. -/
theorem Affords.succ (affords : Affords effort credit (saving + 1) cursor result) :
    Affords (1 + effort) (credit + 1) saving cursor result where
  always := by
    have := affords.always
    omega
  taken read := by
    have := affords.taken read
    omega

/-- Characters in front of what is read pay for themselves and leave three each. -/
theorem Affords.of_behind {own : List Char}
    (affords : Affords effort (credit + 3 * own.length) saving middle result)
    (behind : middle.Behind own cursor) :
    Affords (own.length + effort) credit (saving + 3 * own.length) cursor result := by
  have length : cursor.rest.length = own.length + middle.rest.length := by
    rw [behind.1, List.length_append]
  constructor
  · have := affords.always
    omega
  · intro value finish read
    have := affords.taken read
    omega

/-- What is skipped pays for itself. -/
theorem Affords.of_skip {condition : Char → Bool}
    (affords : Affords effort credit saving (cursor.skip condition) result) :
    Affords (cursor.span condition + effort) credit saving cursor result := by
  have paid := (affords.weaken (Nat.le_add_right _ _) (Nat.le_refl _)).of_behind
    (cursor.behind_skip condition)
  exact paid.weaken (Nat.le_refl _) (Nat.le_add_right _ _)

/-- Blanks behind what was read pay for themselves. -/
theorem affords_skip (cursor : Cursor) (condition : Char → Bool) (value : α) :
    Affords (cursor.span condition) 0 1 cursor (.ok (value, cursor.skip condition)) :=
  (affords_pure 0 _ value).of_skip

/-- What is saved on a first part pays for the credit of the second. -/
theorem Affords.bind {next : α × Cursor → Nat}
    {second : α × Cursor → Except ParseError (β × Cursor)}
    {first laterCredit laterSaving less : Nat} (head : Affords effort first saving cursor result)
    (tail : ∀ read, Affords (next read) laterCredit laterSaving read.2 (second read))
    (credits : first ≤ credit ∧ laterCredit + 1 ≤ credit + saving)
    (savings : less + 1 ≤ saving + laterSaving) :
    Affords (effort + effortBehind result next) credit less cursor (result >>= second) := by
  cases result with
  | error error =>
      refine ⟨?_, nofun⟩
      have := head.always
      rw [effortBehind]
      omega
  | ok read =>
      have paid := head.taken rfl
      have later := tail read
      constructor
      · have := later.always
        rw [effortBehind]
        omega
      · intro value finish accepted
        have := later.taken accepted
        rw [effortBehind]
        omega

/-- What becomes of the value that was read does not matter. -/
theorem Affords.map (affords : Affords effort credit saving cursor result) (f : α → β) :
    Affords effort credit saving cursor (result >>= fun read => .ok (f read.1, read.2)) := by
  refine ⟨affords.always, ?_⟩
  intro value finish accepted
  cases result with
  | error error => cases accepted
  | ok read =>
      cases accepted
      exact affords.taken rfl

/-- A check in front of a reader costs nothing. -/
theorem Affords.of_check (affords : Affords effort credit saving cursor result)
    (check : Except ParseError Unit) :
    Affords (effortBehind check fun _ => effort) credit saving cursor
      (check >>= fun _ => result) := by
  cases check with
  | error error => exact affords_error _ _ _ error
  | ok checked => exact affords

/-- A required character in front of what is read pays for itself and leaves three. -/
theorem affords_of_expect {wanted : Char} {next : Cursor → Nat}
    {second : Cursor → Except ParseError (α × Cursor)}
    (inside : ∀ middle, Affords (next middle) (credit + 3) saving middle (second middle)) :
    Affords (effortBehind (expect wanted cursor) fun middle => 1 + next middle) credit (saving + 3)
      cursor (expect wanted cursor >>= second) := by
  cases opened : expect wanted cursor with
  | error error => exact affords_error _ _ _ error
  | ok middle => exact (inside middle).of_behind (behind_of_expect opened)

end Payment

/-- A character that is taken pays for itself. -/
theorem affords_advance {cursor : Cursor} {c : Char} {rest : List Char}
    (front : cursor.rest = c :: rest) (value : α) :
    Affords 1 0 4 cursor (.ok (value, cursor.advance 1)) := by
  have behind := cursor.behind_advance 1
  rw [front] at behind
  exact (affords_pure 3 _ value).of_behind behind

/-! ## Words and texts -/

/-- No more is looked at than there is. -/
theorem span_le_length (cursor : Cursor) (condition : Char → Bool) :
    cursor.span condition ≤ cursor.rest.length :=
  (List.takeWhile_prefix condition).length_le

/-- What is skipped is taken from the rest. -/
theorem span_add_length_rest (cursor : Cursor) (condition : Char → Bool) :
    cursor.span condition + (cursor.skip condition).rest.length = cursor.rest.length := by
  rw [Cursor.span, Cursor.skip, ← List.length_append, List.takeWhile_append_dropWhile]

/-- A word has a character. -/
theorem wordSpan_of_word {cursor behind : Cursor} {text : List Char}
    (read : word cursor = .ok (text, behind)) :
    wordSpan cursor + behind.rest.length = cursor.rest.length ∧ 1 ≤ wordSpan cursor := by
  rw [word] at read
  split at read
  · cases read
  · rename_i found rest front
    split at read
    · cases read
    · rename_i letter
      cases read
      refine ⟨span_add_length_rest cursor _, ?_⟩
      rw [wordSpan, Cursor.span, front, List.takeWhile_cons, if_pos (by simpa using letter)]
      exact Nat.le_add_left 1 _

/-- No text is longer than what there is. -/
theorem textSpan_le_length (text : List Char) : textSpan text ≤ text.length := by
  fun_induction textSpan text <;> simp only [List.length_nil, List.length_cons] <;> omega

/-- No raw text is longer than what there is. -/
theorem rawTextSpan_le_length (text : List Char) : rawTextSpan text ≤ text.length := by
  fun_induction rawTextSpan text with
  | case1 => exact Nat.le_refl 0
  | case2 c rest closes => exact (List.isPrefixOf_iff_prefix.mp closes).length_le
  | case3 c rest goesOn ih => exact Nat.succ_le_succ ih

/-- A text takes from the rest what it spans. -/
theorem textSpan_of_textBody {opening position : Position} {before text : List Char}
    {behind : Cursor} (read : textBody opening before position = .ok (text, behind)) :
    textSpan before + behind.rest.length = before.length := by
  fun_induction textBody opening before position generalizing text behind with
  | case1 => cases read
  | case2 position rest =>
      cases read
      exact Nat.add_comm 1 _
  | case3 => cases read
  | case4 => cases read
  | case5 code rest position later c known inside cursor readRest =>
      rename_i ih
      cases read
      have := ih readRest
      simp only [textSpan, known, List.length_cons]
      omega
  | case6 => cases read
  | case7 c rest position quote single backslash inside cursor readRest ih =>
      cases read
      have := ih readRest
      rw [textSpan, List.length_cons]
      · omega
      · exact quote
      · exact single
      · exact backslash
  | case8 => cases read

/-- A raw text takes from the rest what it spans. -/
theorem rawTextSpan_of_rawTextBody {opening position : Position} {before text : List Char}
    {behind : Cursor} (read : rawTextBody opening before position = .ok (text, behind)) :
    rawTextSpan before + behind.rest.length = before.length := by
  fun_induction rawTextBody opening before position generalizing text behind with
  | case1 => cases read
  | case2 c rest position closes =>
      cases read
      have := (List.isPrefixOf_iff_prefix.mp closes).length_le
      rw [rawTextSpan, if_pos closes, Cursor.advance, List.length_drop]
      exact Nat.add_sub_cancel' this
  | case3 c rest position goesOn inside cursor readRest ih =>
      cases read
      have := ih readRest
      rw [rawTextSpan, if_neg goesOn, List.length_cons]
      omega
  | case4 => cases read

/-- No quotation is longer than what there is. -/
theorem quotationSpan_le_length (cursor : Cursor) : quotationSpan cursor ≤ cursor.rest.length := by
  rw [quotationSpan]
  split
  · rename_i raw
    have quotes := (List.isPrefixOf_iff_prefix.mp raw).length_le
    have inside := rawTextSpan_le_length (cursor.advance 3).rest
    rw [Cursor.advance, List.length_drop] at inside
    replace quotes : 3 ≤ cursor.rest.length := quotes
    rw [Cursor.advance]
    omega
  · cases opened : expect '"' cursor with
    | error error => exact Nat.zero_le _
    | ok middle =>
        have inside := textSpan_le_length middle.rest
        have := length_rest_of_expect opened
        rw [effortBehind]
        omega

/-- A quotation takes from the rest what it spans, its quotes at least. -/
theorem quotationSpan_of_quotation {cursor behind : Cursor} {text : String}
    (read : quotation cursor = .ok (text, behind)) :
    quotationSpan cursor + behind.rest.length = cursor.rest.length ∧ 1 ≤ quotationSpan cursor := by
  rw [quotationSpan]
  cases quotation_outcome read with
  | raw opens read =>
      have quotes : 3 ≤ cursor.rest.length := opens.length_le
      have inside := rawTextSpan_of_rawTextBody read
      rw [Cursor.advance, List.length_drop] at inside
      rw [if_pos (List.isPrefixOf_iff_prefix.mpr opens), Cursor.advance]
      omega
  | text single opened read =>
      have inside := textSpan_of_textBody read
      have := length_rest_of_expect opened
      rw [if_neg fun opens => single (List.isPrefixOf_iff_prefix.mp opens), opened, effortBehind]
      omega

/-- A quotation pays for itself. -/
theorem affords_quotation (cursor : Cursor) :
    Affords (quotationSpan cursor) 0 4 cursor (quotation cursor) :=
  affords_of_span (quotationSpan_le_length cursor) quotationSpan_of_quotation

/-- A head pays for itself. -/
theorem affords_headWord (cursor : Cursor) :
    Affords (wordSpan cursor) 0 4 cursor (headWord cursor) := by
  refine affords_of_span (span_le_length cursor _) fun read => ?_
  cases headWord_outcome read with
  | head readWord _ => exact wordSpan_of_word readWord

/-- A plain word pays for itself. -/
theorem affords_plainWord (cursor : Cursor) :
    Affords (wordSpan cursor) 0 4 cursor (plainWord cursor) := by
  refine affords_of_span (span_le_length cursor _) fun read => ?_
  cases plainWord_outcome read with
  | number readWord _ => exact wordSpan_of_word readWord
  | symbol readWord _ => exact wordSpan_of_word readWord

/-- The sign of a variable is one more character. -/
theorem affords_variableWord {cursor : Cursor} {rest : List Char}
    (front : cursor.rest = '$' :: rest) :
    Affords (1 + wordSpan (cursor.advance 1)) 0 4 cursor (variableWord cursor) := by
  have length : (cursor.advance 1).rest.length + 1 = cursor.rest.length := by
    rw [Cursor.advance, front]
    rfl
  have within := span_le_length (cursor.advance 1) fun c => !isDelimiter c
  refine affords_of_span (by rw [wordSpan]; omega) fun read => ?_
  cases variableWord_outcome read with
  | named readWord _ =>
      have := wordSpan_of_word readWord
      omega

/-! ## Nested parts -/

/-- The effort of the readers of nested parts with this many steps is paid. -/
structure Affordable (steps : Nat) : Prop where
  block : ∀ cursor : Cursor, Affords (blockEffort steps cursor) 1 3 cursor (block steps cursor)
  commands : ∀ (inBlock : Bool) (cursor : Cursor),
    Affords (commandsEffort steps inBlock cursor) 3 0 cursor (commands steps inBlock cursor)
  command : ∀ (inBlock : Bool) (cursor : Cursor),
    Affords (commandEffort steps inBlock cursor) 2 2 cursor (command steps inBlock cursor)
  arguments : ∀ (inBlock : Bool) (cursor : Cursor),
    Affords (argumentsEffort steps inBlock cursor) 3 0 cursor (arguments steps inBlock cursor)
  argument : ∀ cursor : Cursor,
    Affords (argumentEffort steps cursor) 2 2 cursor (argument steps cursor)
  items : ∀ cursor : Cursor, Affords (itemsEffort steps cursor) 3 3 cursor (items steps cursor)

section Step

variable {steps : Nat} (less : Affordable steps)
include less

/-- A block pays for its commands and its braces. -/
theorem Affordable.block_succ (cursor : Cursor) :
    Affords (blockEffort (steps + 1) cursor) 1 3 cursor (Source.block (steps + 1) cursor) := by
  have closes (read : Script × Cursor) :
      Affords (effortBehind (expect '}' read.2) fun _ => 1) 0 4 read.2
        (expect '}' read.2 >>= fun behind => .ok (read.1, behind)) :=
    affords_of_expect fun behind => affords_pure 3 behind read.1
  have inside (middle : Cursor) := (less.commands true middle).bind closes
    (by decide : 3 ≤ 3 ∧ 0 + 1 ≤ 3 + 0) (by decide : 3 + 1 ≤ 0 + 4)
  rw [blockEffort, Source.block]
  exact ((affords_of_expect inside).weaken (Nat.le_refl 0) (by decide : 4 ≤ 6)).succ

/-- Commands pay for themselves and for the look at the end. -/
theorem Affordable.commands_succ (inBlock : Bool) (cursor : Cursor) :
    Affords (commandsEffort (steps + 1) inBlock cursor) 3 0 cursor
      (Source.commands (steps + 1) inBlock cursor) := by
  have tail (read : Command × Cursor) :=
    ((less.commands inBlock read.2).map (read.1 :: ·)).of_check (afterCommand inBlock read.1 read.2)
  have goesOn (start : Cursor) := (less.command inBlock start).bind tail
    (by decide : 2 ≤ 2 ∧ 3 + 1 ≤ 2 + 2) (by decide : 1 + 1 ≤ 2 + 0)
  rw [commandsEffort, Source.commands]
  refine (Affords.of_skip ?_).succ
  cases (cursor.skip isSeparator).rest with
  | nil =>
      dsimp only
      split
      · exact affords_error _ _ _ _
      · exact affords_pure _ _ _
  | cons c rest =>
      dsimp only
      split
      · exact affords_pure _ _ _
      · exact goesOn _

/-- A command pays for its head and its arguments. -/
theorem Affordable.command_succ (inBlock : Bool) (cursor : Cursor) :
    Affords (commandEffort (steps + 1) inBlock cursor) 2 2 cursor
      (Source.command (steps + 1) inBlock cursor) := by
  have runsBlock := (less.block cursor).bind (fun read => affords_skip read.2 isInlineBlank
      (Command.mk Keyword.block [.script read.1]))
    (by decide : 1 ≤ 1 ∧ 0 + 1 ≤ 1 + 3) (by decide : 3 + 1 ≤ 3 + 1)
  have calls := (affords_headWord cursor).bind (fun read =>
      (less.arguments inBlock read.2).map (Command.mk read.1 ·))
    (by decide : 0 ≤ 1 ∧ 3 + 1 ≤ 1 + 4) (by decide : 3 + 1 ≤ 4 + 0)
  rw [Source.command.eq_def]
  dsimp only
  split
  · rename_i front
    rw [commandEffort]
    simp only [front]
    exact runsBlock.succ
  · rename_i noBrace
    rw [commandEffort]
    split
    · rename_i front
      exact absurd front (noBrace _)
    · exact calls.succ

/-- Arguments pay for themselves and for the look at the end. -/
theorem Affordable.arguments_succ (inBlock : Bool) (cursor : Cursor) :
    Affords (argumentsEffort (steps + 1) inBlock cursor) 3 0 cursor
      (Source.arguments (steps + 1) inBlock cursor) := by
  have goesOn (start : Cursor) := (less.argument start).bind (fun read =>
      (less.arguments inBlock read.2).map (read.1 :: ·))
    (by decide : 2 ≤ 2 ∧ 3 + 1 ≤ 2 + 2) (by decide : 1 + 1 ≤ 2 + 0)
  rw [argumentsEffort, Source.arguments]
  refine (Affords.of_skip ?_).succ
  cases (cursor.skip isInlineBlank).rest with
  | nil => exact affords_pure _ _ _
  | cons c rest =>
      dsimp only
      split
      · exact affords_pure _ _ _
      · exact goesOn _

/-- An argument pays for itself, whatever character it begins with. -/
theorem Affordable.argument_succ (cursor : Cursor) :
    Affords (argumentEffort (steps + 1) cursor) 2 2 cursor
      (Source.argument (steps + 1) cursor) := by
  have list : Affords (effortBehind (expect '[' cursor) fun inside => 1 + itemsEffort steps inside)
      0 6 cursor (expect '[' cursor >>= fun inside =>
        Source.items steps inside >>= fun read => .ok (Argument.list read.1, read.2)) :=
    affords_of_expect fun inside => (less.items inside).map Argument.list
  rw [Source.argument.eq_def]
  dsimp only
  split
  case h_1 front =>
    rw [argumentEffort]
    simp only [front]
    exact ((less.block cursor).map Argument.script).succ
  case h_2 front =>
    rw [argumentEffort]
    simp only [front]
    exact (list.weaken (by decide) (by decide)).succ
  case h_3 front =>
    rw [argumentEffort]
    simp only [front]
    exact (((affords_quotation cursor).map Argument.text).weaken (by decide) (by decide)).succ
  case h_4 front =>
    rw [argumentEffort]
    simp only [front]
    exact ((affords_variableWord front).weaken (by decide) (by decide)).succ
  case h_5 front =>
    rw [argumentEffort]
    simp only [front]
    exact (affords_error _ _ _ _).succ
  case h_6 front =>
    rw [argumentEffort]
    simp only [front]
    exact (affords_error _ _ _ _).succ
  case h_7 =>
    rw [argumentEffort]
    split
    case h_7 => exact ((affords_plainWord cursor).weaken (by decide) (by decide)).succ
    all_goals simp_all

/-- Items pay for themselves and for the bracket. -/
theorem Affordable.items_succ (cursor : Cursor) :
    Affords (itemsEffort (steps + 1) cursor) 3 3 cursor (Source.items (steps + 1) cursor) := by
  have goesOn (start : Cursor) := (less.argument start).bind (fun read =>
      (less.items read.2).map (read.1 :: ·))
    (by decide : 2 ≤ 2 ∧ 3 + 1 ≤ 2 + 2) (by decide : 4 + 1 ≤ 2 + 3)
  rw [itemsEffort, Source.items]
  refine (Affords.of_skip ?_).succ
  cases front : (cursor.skip isBlank).rest with
  | nil => exact affords_error _ _ _ _
  | cons c rest =>
      dsimp only
      split
      · exact (affords_advance front []).weaken (by decide) (by decide)
      · exact goesOn _

end Step

/-- The effort of every reader is paid, whatever the number of steps. -/
theorem affordable (steps : Nat) : Affordable steps := by
  induction steps with
  | zero => exact {
      block := fun cursor => affords_error 1 3 cursor _
      commands := fun _ cursor => affords_error 3 0 cursor _
      command := fun _ cursor => affords_error 2 2 cursor _
      arguments := fun _ cursor => affords_error 3 0 cursor _
      argument := fun cursor => affords_error 2 2 cursor _
      items := fun cursor => affords_error 3 3 cursor _ }
  | succ steps less => exact {
      block := less.block_succ
      commands := less.commands_succ
      command := less.command_succ
      arguments := less.arguments_succ
      argument := less.argument_succ
      items := less.items_succ }

/-! ## Whole sources -/

/-- The effort of reading a source text. -/
def parseEffort (text : List Char) : Nat :=
  let start := (Cursor.ofText text).skip isBlank
  let again := commandsEffort (stepsFor text.length) false (Cursor.ofText text)
  (Cursor.ofText text).span isBlank +
    match start.rest with
    | '{' :: _ =>
      blockEffort (stepsFor text.length) start +
        effortBehind (block (stepsFor text.length) start) fun read =>
          read.2.span isSeparator + if (read.2.skip isSeparator).rest.isEmpty then 0 else again
    | _ => again

/-- A text is read at most twice. -/
theorem parseEffort_le (text : List Char) : parseEffort text ≤ 8 * text.length + 3 := by
  have blanks := span_add_length_rest (Cursor.ofText text) isBlank
  have again := ((affordable (stepsFor text.length)).commands false (Cursor.ofText text)).always
  have paid := (affordable (stepsFor text.length)).block ((Cursor.ofText text).skip isBlank)
  rw [parseEffort]
  replace blanks : _ = text.length := blanks
  replace again : _ ≤ 4 * text.length + 3 := again
  split
  · rename_i rest front
    cases accepted : block (stepsFor text.length) ((Cursor.ofText text).skip isBlank) with
    | error error =>
        have := paid.always
        rw [effortBehind]
        omega
    | ok read =>
        have taken := paid.taken accepted
        have separators := span_le_length read.2 isSeparator
        rw [effortBehind]
        split <;> omega
  · omega

end CommandScript.Source
