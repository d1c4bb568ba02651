import CommandScript.Proofs.Decimal.Spelling
import CommandScript.Proofs.Source.Written

/-!
# The grammar of source texts

The grammar tells which texts spell which trees, without telling how a text is read. Each of its
relations takes a part off the front of a text: it relates the text in which the part stands first,
the tree of the part, and the text left behind it. The text left behind matters, because a word goes
on as far as it can: it has to be followed by a delimiter or by nothing.

Blanks stand freely between the items of a list, and separators between commands. Between arguments
only blanks of the same line may stand. Behind its arguments a command ends at a separator, at the
brace that closes its block or at the end of the text. A block in the place of a command needs
nothing behind it.
-/

namespace CommandScript.Source

open CommandScript.Text

/-! ## Texts between quotes -/

/-- What may stand behind a backslash, and what it means there. -/
def escapes : List (Char × Char) :=
  [('n', '\n'), ('t', '\t'), ('r', '\r'), ('"', '"'), ('\\', '\\')]

/-- The characters between two quotes spell a text. -/
inductive SpellsCharacters : List Char → List Char → Prop where
  | nil : SpellsCharacters [] []
  | plain {c : Char} {written text : List Char} (quote : c ≠ '"') (backslash : c ≠ '\\')
    (others : SpellsCharacters written text) : SpellsCharacters (c :: written) (c :: text)
  | escape {code c : Char} {written text : List Char} (known : (code, c) ∈ escapes)
    (others : SpellsCharacters written text) :
    SpellsCharacters ('\\' :: code :: written) (c :: text)

/-- A text in quotes. Three quotes in a row are not an empty text and a quote; they open a raw text,
which stands for itself and ends before the first three quotes that follow. -/
inductive SpellsText : List Char → String → List Char → Prop where
  | quoted {written text after : List Char} (inside : SpellsCharacters written text)
    (single : ¬ rawQuotes <+: '"' :: (written ++ '"' :: after)) :
    SpellsText ('"' :: (written ++ '"' :: after)) (String.ofList text) after
  | raw {text after : List Char}
    (first : ∀ front back, text = front ++ back → back ≠ [] → ¬ rawQuotes <+: back ++ rawQuotes) :
    SpellsText (rawQuotes ++ (text ++ (rawQuotes ++ after))) (String.ofList text) after

/-! ## Nested parts -/

/-- What may follow the arguments of a command: nothing, a separator other than the blanks of a line,
or a brace. -/
def EndsCommand (after : List Char) : Prop :=
  ∀ c ∈ after.head?, c = ';' ∨ c = '\n' ∨ c = '}'

mutual

/-- An argument. A word in the shape of a numeral is a number, and every other word is a symbol. -/
inductive SpellsArgument : List Char → Argument → List Char → Prop where
  | number {word after : List Char} (shape : Decimal.IsSigned word) (ends : EndsWord after) :
    SpellsArgument (word ++ after) (.number ((Decimal.Numeral.cut word).value 0)) after
  | symbol {after : List Char} (symbol : Symbol) (ends : EndsWord after) :
    SpellsArgument (symbol.text.toList ++ after) (.symbol symbol) after
  | reference {after : List Char} (name : Symbol) (ends : EndsWord after) :
    SpellsArgument ('$' :: (name.text.toList ++ after)) (.variable name) after
  | text {before after : List Char} {text : String} (quotation : SpellsText before text after) :
    SpellsArgument before (.text text) after
  | list {inside after : List Char} {list : List Argument} (items : SpellsItems inside list after) :
    SpellsArgument ('[' :: inside) (.list list) after
  | script {before after : List Char} {script : Script} (block : SpellsBlock before script after) :
    SpellsArgument before (.script script) after

/-- The items of a list, and the bracket that closes it. -/
inductive SpellsItems : List Char → List Argument → List Char → Prop where
  | close {blanks after : List Char} (blank : ∀ c ∈ blanks, isBlank c = true) :
    SpellsItems (blanks ++ ']' :: after) [] after
  | item {blanks before middle after : List Char} {first : Argument} {others : List Argument}
    (blank : ∀ c ∈ blanks, isBlank c = true) (head : SpellsArgument before first middle)
    (tail : SpellsItems middle others after) :
    SpellsItems (blanks ++ before) (first :: others) after

/-- Commands between braces. -/
inductive SpellsBlock : List Char → Script → List Char → Prop where
  | braces {inside after : List Char} {script : Script}
    (commands : SpellsCommands inside script ('}' :: after)) :
    SpellsBlock ('{' :: inside) script after

/-- The arguments of a command, up to where it ends. -/
inductive SpellsArguments : List Char → List Argument → List Char → Prop where
  | stop {blanks after : List Char} (inline : ∀ c ∈ blanks, isInlineBlank c = true)
    (ends : EndsCommand after) : SpellsArguments (blanks ++ after) [] after
  | argument {blanks before middle after : List Char} {first : Argument} {others : List Argument}
    (inline : ∀ c ∈ blanks, isInlineBlank c = true) (head : SpellsArgument before first middle)
    (tail : SpellsArguments middle others after) :
    SpellsArguments (blanks ++ before) (first :: others) after

/-- Commands with the separators around them. A block in the place of a command spells the command
that runs it. -/
inductive SpellsCommands : List Char → Script → List Char → Prop where
  | stop {separators after : List Char} (separator : ∀ c ∈ separators, isSeparator c = true) :
    SpellsCommands (separators ++ after) [] after
  | block {separators before middle after : List Char} {script others : Script}
    (separator : ∀ c ∈ separators, isSeparator c = true)
    (head : SpellsBlock before script middle) (tail : SpellsCommands middle others after) :
    SpellsCommands (separators ++ before) (.mk Keyword.block [.script script] :: others) after
  | call {separators behind middle after : List Char} {args : List Argument} {others : Script}
    (separator : ∀ c ∈ separators, isSeparator c = true) (head : Symbol) (ends : EndsWord behind)
    (arguments : SpellsArguments behind args middle) (tail : SpellsCommands middle others after) :
    SpellsCommands (separators ++ (head.text.toList ++ behind)) (.mk head args :: others) after

end

/-! ## Whole sources -/

/-- Blanks, one block, and then nothing but separators. -/
inductive SpellsOneBlock : List Char → Script → Prop where
  | intro {blanks before separators : List Char} {script : Script}
    (blank : ∀ c ∈ blanks, isBlank c = true) (block : SpellsBlock before script separators)
    (separator : ∀ c ∈ separators, isSeparator c = true) :
    SpellsOneBlock (blanks ++ before) script

/-- A source text spells a script: the one of its only block, or else its commands. -/
inductive Spells (source : List Char) (script : Script) : Prop where
  | block (only : SpellsOneBlock source script)
  | commands (spelled : SpellsCommands source script [])
    (several : ∀ other, ¬ SpellsOneBlock source other)

/-! ## Where a part begins -/

/-- The name of a numeral is a word. -/
theorem isWord_of_isSigned {text : List Char} (shape : Decimal.IsSigned text) : IsWord text := by
  refine ⟨shape.ne_nil, fun c member => ?_⟩
  rcases shape.mem member with digit | rfl | rfl
  · apply isDelimiter_eq_false_of_continuesSymbol
    rw [continuesSymbol, digit, Bool.or_true]
  · rfl
  · rfl

/-- A text begins with a quote. -/
theorem SpellsText.begins {before after : List Char} {text : String}
    (quotation : SpellsText before text after) : ∃ rest, before = '"' :: rest := by
  cases quotation with
  | quoted inside single => exact ⟨_, rfl⟩
  | raw first => exact ⟨_, rfl⟩

/-- A block begins with a brace. -/
theorem SpellsBlock.begins {before after : List Char} {script : Script}
    (block : SpellsBlock before script after) : ∃ rest, before = '{' :: rest := by
  cases block with
  | braces commands => exact ⟨_, rfl⟩

/-- The first character of a word opens an argument or a command. -/
theorem IsWord.begins {word : List Char} (isWord : IsWord word) (after : List Char) :
    ∃ c rest, word ++ after = c :: rest ∧ isDelimiter c = false ∧ Opens c := by
  obtain ⟨c, rest, rfl, free⟩ := isWord_cons isWord
  exact ⟨c, rest ++ after, rfl, free, opens_of_isDelimiter_eq_false free⟩

/-- An argument begins with a character that neither stands between arguments nor ends them. -/
theorem SpellsArgument.begins {before after : List Char} {arg : Argument}
    (spelled : SpellsArgument before arg after) : ∃ c rest, before = c :: rest ∧ Opens c := by
  cases spelled with
  | number shape ends =>
      obtain ⟨c, rest, front, -, opens⟩ := (isWord_of_isSigned shape).begins after
      exact ⟨c, rest, front, opens⟩
  | symbol symbol ends =>
      obtain ⟨c, rest, front, -, opens⟩ := (isWord_symbol symbol).begins after
      exact ⟨c, rest, front, opens⟩
  | reference name ends => exact ⟨'$', _, rfl, by decide⟩
  | text quotation =>
      obtain ⟨rest, front⟩ := quotation.begins
      exact ⟨'"', rest, front, by decide⟩
  | list items => exact ⟨'[', _, rfl, by decide⟩
  | script block =>
      obtain ⟨rest, front⟩ := block.begins
      exact ⟨'{', rest, front, by decide⟩

/-! ## Every part takes some of the text -/

/-- The second text is left of the first behind at least one character. -/
def Takes (before after : List Char) : Prop :=
  after <:+ before ∧ after.length < before.length

/-- Whatever has characters takes some. -/
theorem takes_append {own : List Char} (inhabited : own ≠ []) (after : List Char) :
    Takes (own ++ after) after := by
  refine ⟨List.suffix_append own after, ?_⟩
  rw [List.length_append]
  exact Nat.lt_add_of_pos_left (List.length_pos_iff.mpr inhabited)

/-- Whoever takes from a later part takes from the whole. -/
theorem Takes.of_suffix {before middle after : List Char} (takes : Takes middle after)
    (left : middle <:+ before) : Takes before after :=
  ⟨takes.1.trans left, takes.2.trans_le left.length_le⟩

/-- A text takes characters. -/
theorem SpellsText.takes {before after : List Char} {text : String}
    (spelled : SpellsText before text after) : Takes before after := by
  cases spelled with
  | @quoted written _ _ inside single =>
      exact (takes_append (List.cons_ne_nil '"' []) after).of_suffix
        (List.suffix_append ('"' :: written) _)
  | @raw text _ first =>
      have inhabited : rawQuotes ≠ [] := List.cons_ne_nil _ _
      refine (takes_append inhabited after).of_suffix ?_
      exact (List.suffix_append text _).trans (List.suffix_append rawQuotes _)

mutual

/-- An argument takes characters. -/
theorem SpellsArgument.takes : ∀ {before after : List Char} {arg : Argument},
    SpellsArgument before arg after → Takes before after
  | _, after, _, .number shape _ => takes_append shape.ne_nil after
  | _, after, _, .symbol symbol _ => takes_append (isWord_symbol symbol).1 after
  | _, after, _, .reference name _ =>
      takes_append (List.cons_ne_nil '$' name.text.toList) after
  | _, _, _, .text quotation => quotation.takes
  | _, _, _, .list items => (SpellsItems.takes items).of_suffix (List.suffix_cons ..)
  | _, _, _, .script block => SpellsBlock.takes block

theorem SpellsItems.takes : ∀ {before after : List Char} {list : List Argument},
    SpellsItems before list after → Takes before after
  | _, after, _, .close _ =>
      (takes_append (List.cons_ne_nil ']' []) after).of_suffix (List.suffix_append ..)
  | _, _, _, .item _ head tail =>
      (SpellsItems.takes tail).of_suffix
        ((SpellsArgument.takes head).1.trans (List.suffix_append ..))

theorem SpellsBlock.takes : ∀ {before after : List Char} {script : Script},
    SpellsBlock before script after → Takes before after
  | _, after, _, .braces commands =>
      (takes_append (List.cons_ne_nil '}' []) after).of_suffix
        ((SpellsCommands.suffix commands).trans (List.suffix_cons ..))

theorem SpellsArguments.suffix : ∀ {before after : List Char} {args : List Argument},
    SpellsArguments before args after → after <:+ before
  | _, _, _, .stop _ _ => List.suffix_append ..
  | _, _, _, .argument _ head tail =>
      (SpellsArguments.suffix tail).trans
        ((SpellsArgument.takes head).1.trans (List.suffix_append ..))

/-- Commands leave the end of what they are spelled in. -/
theorem SpellsCommands.suffix : ∀ {before after : List Char} {script : Script},
    SpellsCommands before script after → after <:+ before
  | _, _, _, .stop _ => List.suffix_append ..
  | _, _, _, .block _ head tail =>
      (SpellsCommands.suffix tail).trans
        ((SpellsBlock.takes head).1.trans (List.suffix_append ..))
  | _, _, _, .call _ _ _ arguments tail =>
      (SpellsCommands.suffix tail).trans ((SpellsArguments.suffix arguments).trans
        ((List.suffix_append ..).trans (List.suffix_append ..)))

end

/-- Behind its arguments a command ends. -/
theorem SpellsArguments.ends : ∀ {before after : List Char} {args : List Argument},
    SpellsArguments before args after → EndsCommand after
  | _, _, _, .stop _ ends => ends
  | _, _, _, .argument _ _ tail => tail.ends

/-- No text spells no commands, whatever stands behind it. -/
theorem spellsCommands_nil (after : List Char) : SpellsCommands after [] after :=
  @SpellsCommands.stop [] after (List.forall_mem_nil _)

end CommandScript.Source
