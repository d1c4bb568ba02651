import CommandScript.Proofs.Source.Recognition

/-!
# Parts with another text behind them

What a text spells does not depend on all that stands behind it, but on the next character at most:
a word must end there, a command must end there, and two quotes must not become three. So another
text may be put behind a part if it begins with the same character, or if it begins with one at
which a command ends, such as a line feed.
-/

namespace CommandScript.Source

open CommandScript.Text

/-- The second text may stand wherever the first does. -/
def Fits (after other : List Char) : Prop :=
  other.head? = after.head? ∨ EndsCommand other

/-- Texts that begin with the same character fit. -/
theorem fits_cons (c : Char) (rest others : List Char) : Fits (c :: rest) (c :: others) :=
  .inl rfl

/-- The same text may stand in front of both. -/
theorem Fits.append_left {after other : List Char} (fits : Fits after other) (own : List Char) :
    Fits (own ++ after) (own ++ other) := by
  cases own with
  | nil => exact fits
  | cons c own => exact fits_cons c _ _

/-- Where a command ends a word does. -/
theorem isDelimiter_of_endsCommand {other : List Char} (ends : EndsCommand other) :
    EndsWord other := by
  intro c first
  rcases ends c first with rfl | rfl | rfl <;> rfl

/-- A word that ends in front of a text does so in front of one that fits. -/
theorem Fits.endsWord {after other : List Char} (fits : Fits after other) (ends : EndsWord after) :
    EndsWord other := by
  rcases fits with alike | closes
  · intro c first
    exact ends c (alike ▸ first)
  · exact isDelimiter_of_endsCommand closes

/-- A command that ends in front of a text does so in front of one that fits. -/
theorem Fits.endsCommand {after other : List Char} (fits : Fits after other)
    (ends : EndsCommand after) : EndsCommand other := by
  rcases fits with alike | closes
  · intro c first
    exact ends c (alike ▸ first)
  · exact closes

/-- A quote that does not stand in front of the first text does not stand in front of the second. -/
theorem Fits.quote {after other : List Char} (fits : Fits after other)
    (free : '"' ∉ after.head?) : '"' ∉ other.head? := by
  intro first
  rcases fits with alike | closes
  · exact free (alike ▸ first)
  · rcases closes '"' first with semicolon | newline | brace
    · exact absurd semicolon (by decide)
    · exact absurd newline (by decide)
    · exact absurd brace (by decide)

/-! ## Texts between quotes -/

/-- Between its two quotes a text does not begin with a quote. -/
theorem SpellsCharacters.begins {written text : List Char}
    (spelled : SpellsCharacters written text) : '"' ∉ written.head? := by
  cases spelled with
  | nil => exact nofun
  | plain quote backslash others => rintro ⟨⟩; exact quote rfl
  | escape known others => rintro ⟨⟩

/-- An empty text in front of a quote looks like the begin of a raw text, and no other does. -/
theorem rawQuotes_prefix_iff {written after : List Char} (plain : '"' ∉ written.head?) :
    rawQuotes <+: '"' :: (written ++ '"' :: after) ↔ written = [] ∧ '"' ∈ after.head? := by
  cases written with
  | nil =>
      cases after with
      | nil => simp [rawQuotes]
      | cons c after => simp [rawQuotes, List.cons_prefix_cons, eq_comm]
  | cons d written =>
      have other : '"' ≠ d := fun same => plain (same ▸ rfl)
      simp [rawQuotes, List.cons_prefix_cons, other]

/-! ## Grafts -/

/-- The part takes some text of its own, and spells the same in front of any other text that may
stand behind it. -/
def Grafts {α : Type} (spells : List Char → α → List Char → Prop) (before : List Char) (tree : α)
    (after : List Char) : Prop :=
  ∃ own, before = own ++ after ∧ ∀ other, Fits after other → spells (own ++ other) tree other

/-- What stands in front of a part is put in front of every graft of it. -/
theorem Grafts.of_front {α β : Type} {spells : List Char → α → List Char → Prop}
    {whole : List Char → β → List Char → Prop} {before after : List Char} {tree : α} {root : β}
    (grafts : Grafts spells before tree after) (front : List Char)
    (build : ∀ {before after}, spells before tree after → whole (front ++ before) root after) :
    Grafts whole (front ++ before) root after := by
  obtain ⟨own, rfl, graft⟩ := grafts
  refine ⟨front ++ own, (List.append_assoc ..).symm, fun other fits => ?_⟩
  rw [List.append_assoc]
  exact build (graft other fits)

/-- Of two parts, one behind the other, the second is grafted with the text, and the first with the
second. -/
theorem Grafts.of_both {α β γ : Type} {spells : List Char → α → List Char → Prop}
    {follows : List Char → β → List Char → Prop} {whole : List Char → γ → List Char → Prop}
    {before middle after : List Char} {first : α} {second : β} {root : γ}
    (head : Grafts spells before first middle) (tail : Grafts follows middle second after)
    (front : List Char)
    (build : ∀ {before middle after}, spells before first middle → follows middle second after →
      whole (front ++ before) root after) :
    Grafts whole (front ++ before) root after := by
  obtain ⟨own, rfl, graft⟩ := head
  obtain ⟨later, rfl, graftLater⟩ := tail
  refine ⟨front ++ (own ++ later), by simp only [List.append_assoc], fun other fits => ?_⟩
  rw [List.append_assoc, List.append_assoc]
  exact build (graft (later ++ other) (fits.append_left later)) (graftLater other fits)

/-- A text may be followed by whatever fits. -/
theorem SpellsText.grafts {before after : List Char} {text : String}
    (spelled : SpellsText before text after) : Grafts SpellsText before text after := by
  cases spelled with
  | @quoted written _ _ inside single =>
      refine ⟨'"' :: (written ++ ['"']), by simp, fun other fits => ?_⟩
      have free : ¬ rawQuotes <+: '"' :: (written ++ '"' :: other) := by
        rw [rawQuotes_prefix_iff inside.begins] at single ⊢
        exact fun opens => fits.quote (fun first => single ⟨opens.1, first⟩) opens.2
      have spelled := SpellsText.quoted inside free
      simpa using spelled
  | @raw text _ first =>
      refine ⟨rawQuotes ++ (text ++ rawQuotes), by simp, fun other _ => ?_⟩
      have spelled := @SpellsText.raw _ other first
      simpa using spelled

mutual

/-- An argument may be followed by whatever fits. -/
theorem SpellsArgument.grafts : ∀ {before after : List Char} {arg : Argument},
    SpellsArgument before arg after → Grafts SpellsArgument before arg after
  | _, _, _, .number shape ends => ⟨_, rfl, fun _ fits => .number shape (fits.endsWord ends)⟩
  | _, _, _, .symbol symbol ends => ⟨_, rfl, fun _ fits => .symbol symbol (fits.endsWord ends)⟩
  | _, _, _, .reference name ends =>
      ⟨'$' :: name.text.toList, rfl, fun _ fits => .reference name (fits.endsWord ends)⟩
  | _, _, _, .text quotation => quotation.grafts.of_front [] .text
  | _, _, _, .list items => (SpellsItems.grafts items).of_front ['['] .list
  | _, _, _, .script block => (SpellsBlock.grafts block).of_front [] .script

theorem SpellsItems.grafts : ∀ {before after : List Char} {list : List Argument},
    SpellsItems before list after → Grafts SpellsItems before list after
  | _, after, _, @SpellsItems.close blanks _ blank => by
      refine ⟨blanks ++ [']'], by simp, fun other _ => ?_⟩
      rw [List.append_assoc]
      exact .close blank
  | _, _, _, @SpellsItems.item blanks _ _ _ _ _ blank head tail =>
      (SpellsArgument.grafts head).of_both (SpellsItems.grafts tail) blanks (.item blank)

theorem SpellsBlock.grafts : ∀ {before after : List Char} {script : Script},
    SpellsBlock before script after → Grafts SpellsBlock before script after
  | _, after, _, .braces commands => by
      obtain ⟨own, rfl, graft⟩ := SpellsCommands.grafts commands
      refine ⟨'{' :: (own ++ ['}']), by simp, fun other _ => ?_⟩
      rw [List.cons_append, List.append_assoc]
      exact .braces (graft ('}' :: other) (fits_cons '}' after other))

theorem SpellsArguments.grafts : ∀ {before after : List Char} {args : List Argument},
    SpellsArguments before args after → Grafts SpellsArguments before args after
  | _, _, _, .stop inline ends => ⟨_, rfl, fun _ fits => .stop inline (fits.endsCommand ends)⟩
  | _, _, _, @SpellsArguments.argument blanks _ _ _ _ _ inline head tail =>
      (SpellsArgument.grafts head).of_both (SpellsArguments.grafts tail) blanks (.argument inline)

/-- Commands may be followed by whatever fits. -/
theorem SpellsCommands.grafts : ∀ {before after : List Char} {script : Script},
    SpellsCommands before script after → Grafts SpellsCommands before script after
  | _, _, _, .stop separates => ⟨_, rfl, fun _ _ => .stop separates⟩
  | _, _, _, @SpellsCommands.block separators _ _ _ _ _ separates head tail =>
      (SpellsBlock.grafts head).of_both (SpellsCommands.grafts tail) separators (.block separates)
  | _, _, _, @SpellsCommands.call separators behind _ _ _ _ separates head ends arguments tail => by
      obtain ⟨own, rfl, graft⟩ := SpellsArguments.grafts arguments
      obtain ⟨later, rfl, graftLater⟩ := SpellsCommands.grafts tail
      refine ⟨separators ++ (head.text.toList ++ (own ++ later)), by simp only [List.append_assoc],
        fun other fits => ?_⟩
      have within := fits.append_left later
      simp only [List.append_assoc]
      exact .call separates head ((within.append_left own).endsWord ends) (graft _ within)
        (graftLater other fits)

end

/-! ## Rows of commands -/

/-- Commands stand behind commands. -/
theorem SpellsCommands.append : ∀ {before middle after : List Char} {script others : Script},
    SpellsCommands before script middle → SpellsCommands middle others after →
    SpellsCommands before (script ++ others) after
  | _, _, _, _, _, .stop separates, tail => tail.behind_separators separates
  | _, _, _, _, _, .block separates head rest, tail => .block separates head (rest.append tail)
  | _, _, _, _, _, .call separates head ends arguments rest, tail =>
      .call separates head ends arguments (rest.append tail)

end CommandScript.Source
