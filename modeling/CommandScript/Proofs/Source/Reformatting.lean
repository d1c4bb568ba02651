import CommandScript.Proofs.Decimal.Range
import CommandScript.Proofs.Source.ReadBack
import CommandScript.Proofs.Source.Recognition

/-!
# Formatting a program that is read

A tree that has been read from a text holds no numbers but the values of the numerals in that text.
Formatting writes the tree and reads it again. That changes nothing unless the text holds a numeral
too great for the number format: such a numeral has an infinite value, which is written as a word
that is read as a symbol.
-/

namespace CommandScript.Source

/-! ## The numbers of a tree that is spelled -/

/-- The decimal that the word spells is less than half a unit above the greatest number. -/
def InRange (word : List Char) : Prop :=
  (Decimal.Numeral.cut word).toRat < Decimal.overflowBound

/-- The number is the value of a numeral that stands in the text, and finite exactly if that numeral
is in range. -/
def SpelledIn (text : List Char) (x : Float) : Prop :=
  ∃ word, word <:+: text ∧ Decimal.IsSigned word ∧ x = (Decimal.Numeral.cut word).value 0 ∧
    (Decimal.isFinite x = true ↔ InRange word)

/-- A numeral at the front of a text spells its value. -/
theorem spelledIn_front {word : List Char} (shape : Decimal.IsSigned word) (after : List Char) :
    SpelledIn (word ++ after) ((Decimal.Numeral.cut word).value 0) :=
  ⟨word, (List.prefix_append word after).isInfix, shape, rfl,
    Decimal.Numeral.isFinite_value_iff (Decimal.isNumeral_iff.mpr shape)⟩

/-- A number spelled in a part is spelled in the whole. -/
theorem SpelledIn.within {text whole : List Char} {x : Float} (spelled : SpelledIn text x)
    (inside : text <:+: whole) : SpelledIn whole x := by
  obtain ⟨word, stands, shape, value⟩ := spelled
  exact ⟨word, stands.trans inside, shape, value⟩

/-- The numbers of two parts, one behind the other, are spelled in the text that holds both. -/
theorem spelledIn_of_mem_append {first later : List Float} {own before middle : List Char}
    (inFirst : ∀ x ∈ first, SpelledIn before x) (inLater : ∀ x ∈ later, SpelledIn middle x)
    (left : middle <:+ before) : ∀ x ∈ first ++ later, SpelledIn (own ++ before) x := by
  have inside : before <:+: own ++ before := (List.suffix_append own before).isInfix
  intro x member
  rcases List.mem_append.mp member with mine | others
  · exact (inFirst x mine).within inside
  · exact (inLater x others).within (left.isInfix.trans inside)

mutual

/-- The numbers of an argument are spelled in its text. -/
theorem SpellsArgument.numbers : ∀ {before after : List Char} {arg : Argument},
    SpellsArgument before arg after → ∀ x ∈ arg.numbers, SpelledIn before x
  | _, after, _, .number shape _ => by
      intro x member
      rw [Argument.numbers, List.mem_singleton] at member
      exact member ▸ spelledIn_front shape after
  | _, _, _, .symbol _ _ => fun x member => nomatch member
  | _, _, _, .reference _ _ => fun x member => nomatch member
  | _, _, _, .text _ => fun x member => nomatch member
  | _, _, _, .list items => by
      rw [Argument.numbers]
      exact fun x member => (SpellsItems.numbers items x member).within
        (List.suffix_cons _ _).isInfix
  | _, _, _, .script block => by
      rw [Argument.numbers]
      exact SpellsBlock.numbers block

theorem SpellsItems.numbers : ∀ {before after : List Char} {list : List Argument},
    SpellsItems before list after → ∀ x ∈ Argument.numbersAll list, SpelledIn before x
  | _, _, _, .close _ => fun x member => nomatch member
  | _, _, _, .item _ head tail => by
      rw [Argument.numbersAll]
      exact spelledIn_of_mem_append (SpellsArgument.numbers head) (SpellsItems.numbers tail)
        head.takes.1

theorem SpellsBlock.numbers : ∀ {before after : List Char} {script : Script},
    SpellsBlock before script after → ∀ x ∈ Command.numbersAll script, SpelledIn before x
  | _, _, _, .braces commands => fun x member =>
      (SpellsCommands.numbers commands x member).within (List.suffix_cons _ _).isInfix

theorem SpellsArguments.numbers : ∀ {before after : List Char} {args : List Argument},
    SpellsArguments before args after → ∀ x ∈ Argument.numbersAll args, SpelledIn before x
  | _, _, _, .stop _ _ => fun x member => nomatch member
  | _, _, _, .argument _ head tail => by
      rw [Argument.numbersAll]
      exact spelledIn_of_mem_append (SpellsArgument.numbers head) (SpellsArguments.numbers tail)
        head.takes.1

/-- The numbers of commands are spelled in their text. -/
theorem SpellsCommands.numbers : ∀ {before after : List Char} {script : Script},
    SpellsCommands before script after → ∀ x ∈ Command.numbersAll script, SpelledIn before x
  | _, _, _, .stop _ => fun x member => nomatch member
  | _, _, _, .block _ head tail => by
      rw [Command.numbersAll, Command.numbers, Argument.numbersAll, Argument.numbers,
        Argument.numbersAll, List.append_nil]
      exact spelledIn_of_mem_append (SpellsBlock.numbers head) (SpellsCommands.numbers tail)
        head.takes.1
  | _, _, _, .call _ head _ arguments tail => by
      rw [Command.numbersAll, Command.numbers, ← List.append_assoc]
      exact spelledIn_of_mem_append (SpellsArguments.numbers arguments)
        (SpellsCommands.numbers tail) arguments.suffix

end

/-- A script that is read holds only the values of numerals that stand in the text. -/
theorem spelledIn_of_parse {text : List Char} {script : Script} (read : parse text = .ok script) :
    ∀ x ∈ script.numbers, SpelledIn text x := by
  cases spells_of_parse read with
  | block only =>
      cases only with
      | intro blank block separates => exact fun x member =>
          (block.numbers x member).within (List.suffix_append _ _).isInfix
  | commands spelled several => exact spelled.numbers

/-! ## Trees that are written as they are -/

mutual

/-- A legible argument holds only finite numbers. -/
theorem Argument.finite_of_legible : ∀ arg : Argument, arg.legible = arg →
    ∀ x ∈ arg.numbers, Decimal.isFinite x = true
  | .symbol _ => fun _ x member => nomatch member
  | .number value => fun legible x member => by
      rw [Argument.numbers, List.mem_singleton] at member
      subst member
      cases finite : Decimal.isFinite x with
      | true => rfl
      | false =>
          obtain ⟨symbol, told, -⟩ := legibleNumber_of_not_isFinite finite
          rw [Argument.legible, told] at legible
          cases legible
  | .text _ => fun _ x member => nomatch member
  | .variable _ => fun _ x member => nomatch member
  | .list items => fun legible => by
      rw [Argument.legible, Argument.list.injEq] at legible
      rw [Argument.numbers]
      exact Argument.finite_of_legibles items legible
  | .script commands => fun legible => by
      rw [Argument.legible, Argument.script.injEq] at legible
      rw [Argument.numbers]
      exact Command.finite_of_legibles commands legible

theorem Argument.finite_of_legibles : ∀ args : List Argument, Argument.legibles args = args →
    ∀ x ∈ Argument.numbersAll args, Decimal.isFinite x = true
  | [] => fun _ x member => nomatch member
  | arg :: rest => fun legible x member => by
      rw [Argument.legibles, List.cons.injEq] at legible
      rw [Argument.numbersAll] at member
      rcases List.mem_append.mp member with own | others
      · exact Argument.finite_of_legible arg legible.1 x own
      · exact Argument.finite_of_legibles rest legible.2 x others

/-- A command that is legible as it is has finite numbers only. -/
theorem Command.finite_of_legible : ∀ command : Command, command.legible = command →
    ∀ x ∈ command.numbers, Decimal.isFinite x = true
  | .mk head args => fun legible => by
      rw [Command.legible, Command.mk.injEq] at legible
      rw [Command.numbers]
      exact Argument.finite_of_legibles args legible.2

theorem Command.finite_of_legibles : ∀ commands : List Command,
    Command.legibles commands = commands →
    ∀ x ∈ Command.numbersAll commands, Decimal.isFinite x = true
  | [] => fun _ x member => nomatch member
  | command :: rest => fun legible x member => by
      rw [Command.legibles, List.cons.injEq] at legible
      rw [Command.numbersAll] at member
      rcases List.mem_append.mp member with own | others
      · exact Command.finite_of_legible command legible.1 x own
      · exact Command.finite_of_legibles rest legible.2 x others

end

/-- A script is legible as it is just when its numbers are finite. -/
theorem Script.legible_eq_iff (script : Script) :
    script.legible = script ↔ ∀ x ∈ script.numbers, Decimal.isFinite x = true :=
  ⟨Command.finite_of_legibles script, Command.legibles_of_finite script⟩

/-! ## Writing what was read -/

/-- Every finite number is read back as it was written. -/
theorem faithful (numbers : List Float) : Faithful numbers :=
  fun _ _ finite => Decimal.scientific?_plain_text finite

/-- What becomes of a tree that was read from a text when it is written and read again. -/
structure Reformats (text : String) (script : Script) : Prop where
  spelled : ∀ x ∈ script.numbers, SpelledIn text.toList x
  legible : Script.parse script.render = .ok script.legible
  kept_iff : Script.parse script.render = .ok script ↔
    ∀ x ∈ script.numbers, Decimal.isFinite x = true
  /-- Only a numeral out of range gets in the way. -/
  kept_of_inRange : (∀ word, word <:+: text.toList → Decimal.IsSigned word → InRange word) →
    Script.parse script.render = .ok script

/-- Whatever is read is printed to a text that is read again; it comes back the same just when no
number is beyond the range. -/
theorem reformats_of_parse {text : String} {script : Script}
    (read : Script.parse text = .ok script) : Reformats text script := by
  have spelled : ∀ x ∈ script.numbers, SpelledIn text.toList x := spelledIn_of_parse read
  have legible := parse_render_legible script (faithful script.numbers)
  have kept_iff : Script.parse script.render = .ok script ↔
      ∀ x ∈ script.numbers, Decimal.isFinite x = true := by
    rw [legible, Except.ok.injEq]
    exact script.legible_eq_iff
  refine ⟨spelled, legible, kept_iff, fun inRange => kept_iff.mpr fun x member => ?_⟩
  obtain ⟨word, stands, shape, -, finite⟩ := spelled x member
  exact finite.mpr (inRange word stands shape)

/-! ## A numeral out of range -/

/-- A numeral of 310 digits, beyond the greatest finite number. -/
def beyondRange : List Char :=
  '1' :: List.replicate 309 '0'

/-- The number that the numeral is read as. -/
def readBeyondRange : Float :=
  (Decimal.Numeral.cut beyondRange).value 0

/-- The literal is beyond the range. -/
theorem isFinite_readBeyondRange : Decimal.isFinite readBeyondRange = false := by
  decide +kernel

/-- A block with one command, whose argument is the numeral. -/
def sayBeyondRange : List Char :=
  '{' :: ' ' :: (Keyword.block.text.toList ++ ' ' :: (beyondRange ++ [' ', '}']))

/-- The tree of that block. -/
def saidBeyondRange : Script :=
  [.mk Keyword.block [.number readBeyondRange]]

/-- The script has this number only. -/
theorem numbers_saidBeyondRange : saidBeyondRange.numbers = [readBeyondRange] :=
  rfl

/-- The text is read all the same. -/
theorem parse_sayBeyondRange :
    Script.parse (String.ofList sayBeyondRange) = .ok saidBeyondRange := by
  have shape : Decimal.IsSigned beyondRange := Decimal.isNumeral_iff.mp (by decide +kernel)
  have parted (rest : List Char) : EndsWord (' ' :: rest) := by
    rintro c ⟨⟩
    decide
  have blank : ∀ c ∈ [' '], isInlineBlank c = true := List.forall_mem_singleton.mpr rfl
  have separator : ∀ c ∈ [' '], isSeparator c = true := List.forall_mem_singleton.mpr rfl
  have none : ∀ c ∈ ([] : List Char), isSeparator c = true := nofun
  have behind : SpellsArguments [' ', '}'] [] ['}'] :=
    .stop blank (endsCommand_cons (.inr (.inr rfl)) [])
  have argument : SpellsArgument (beyondRange ++ [' ', '}']) (.number readBeyondRange) [' ', '}'] :=
    .number shape (parted _)
  have commands : SpellsCommands (' ' :: (Keyword.block.text.toList ++ ' ' :: (beyondRange ++
      [' ', '}']))) saidBeyondRange ['}'] :=
    .call separator Keyword.block (parted _) (.argument blank argument behind)
      (.stop none)
  rw [Script.parse, String.toList_ofList]
  have only : SpellsBlock sayBeyondRange saidBeyondRange [] := .braces commands
  apply parse_of_spellsOneBlock
  exact @SpellsOneBlock.intro [] _ _ _ nofun only none

/-- What is known of reformatting holds of the text. -/
theorem reformats_sayBeyondRange :
    Script.parse (String.ofList sayBeyondRange) = .ok saidBeyondRange ∧
      Reformats (String.ofList sayBeyondRange) saidBeyondRange :=
  ⟨parse_sayBeyondRange, reformats_of_parse parse_sayBeyondRange⟩

/-- The text is read, but its number is not finite, and the tree is not read back as it was
written. -/
theorem sayBeyondRange_not_kept :
    Script.parse (String.ofList sayBeyondRange) = .ok saidBeyondRange ∧
      Decimal.isFinite readBeyondRange = false ∧
      Script.parse saidBeyondRange.render ≠ .ok saidBeyondRange := by
  refine ⟨parse_sayBeyondRange, isFinite_readBeyondRange, ?_⟩
  rw [parse_render_legible _ (faithful _)]
  intro same
  have finite := saidBeyondRange.legible_eq_iff.mp (Except.ok.inj same) readBeyondRange
    (by rw [numbers_saidBeyondRange]; exact List.mem_singleton_self _)
  rw [isFinite_readBeyondRange] at finite
  cases finite

end CommandScript.Source
