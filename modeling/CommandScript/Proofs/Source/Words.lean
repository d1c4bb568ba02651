import CommandScript.Proofs.Decimal.Shape
import CommandScript.Source.Layout
import CommandScript.Source.Parse

/-!
# Words and texts that are read back

A word ends where a delimiter follows, and no character of a symbol or of a numeral is one. A text
between quotes is read back character by character, because every quote and every backslash in it is
escaped.
-/

namespace CommandScript.Source

open CommandScript.Text

/-- Nothing follows, or a delimiter does. -/
def EndsWord (following : List Char) : Prop :=
  ∀ c ∈ following.head?, isDelimiter c = true

/-- Nothing follows, or a blank does. -/
def Parted (following : List Char) : Prop :=
  ∀ c ∈ following.head?, isBlank c = true

/-- Blanks delimit words. -/
theorem isDelimiter_of_isBlank {c : Char} (blank : isBlank c = true) : isDelimiter c = true := by
  rw [isDelimiter, blank, Bool.true_or]

/-- What is parted from a word lets it end. -/
theorem Parted.endsWord {following : List Char} (parted : Parted following) : EndsWord following :=
  fun c first => isDelimiter_of_isBlank (parted c first)

/-! ## Characters of words -/

/-- No cased letter beyond ASCII is a blank. -/
theorem casedLetters_apart_blanks : ∀ letters ∈ casedLetters, ∀ range ∈ blanks,
    letters.2 < range.1 ∨ range.2 < letters.1 := by
  decide +kernel

/-- No character of a symbol delimits it, among the ASCII characters. -/
theorem isDelimiter_eq_false_of_ascii : ∀ n < 128, continuesSymbol (Char.ofNat n) = true →
    isDelimiter (Char.ofNat n) = false := by
  decide +kernel

/-- All digits are ASCII characters. -/
theorem isDigit_eq_false_of_not_ascii {c : Char} (beyond : ¬ c.toNat < 128) :
    c.isDigit = false := by
  rw [Bool.eq_false_iff]
  intro digit
  simp only [Char.isDigit, Bool.and_eq_true, decide_eq_true_eq] at digit
  have bound : c.toNat ≤ 57 := digit.2
  omega

/-- No character of a symbol ends a word. -/
theorem isDelimiter_eq_false_of_continuesSymbol {c : Char} (continues : continuesSymbol c = true) :
    isDelimiter c = false := by
  by_cases ascii : c.toNat < 128
  · have checked := isDelimiter_eq_false_of_ascii c.toNat ascii
    rw [Char.ofNat_toNat] at checked
    exact checked continues
  · have unmarked : ∀ marks : List Char, marks.all (·.toNat < 128) = true →
        marks.contains c = false := by
      intro marks low
      rw [Bool.eq_false_iff, ne_eq, List.contains_iff_mem]
      exact fun member => ascii (of_decide_eq_true (List.all_eq_true.mp low c member))
    have sign : (c == '$') = false := by simpa using unmarked ['$'] (by decide)
    have letter : casedLetters.contains c = true := by
      rw [continuesSymbol, startsSymbol, unmarked symbolMarks (by decide), sign,
        isDigit_eq_false_of_not_ascii ascii, isCasedLetter, if_neg ascii] at continues
      simpa using continues
    rw [isDelimiter, unmarked _ (by decide), Bool.or_false, Bool.eq_false_iff]
    intro blank
    obtain ⟨letters, among, above, below⟩ := (CodePoints.contains_iff casedLetters c).mp letter
    obtain ⟨range, member, low, high⟩ := (CodePoints.contains_iff blanks c).mp blank
    rcases casedLetters_apart_blanks letters among range member with apart | apart
    · omega
    · omega

/-- The characters of a symbol: one that may be the first, and others that may follow. -/
theorem symbol_characters (symbol : Symbol) : ∃ first rest, symbol.text.toList = first :: rest ∧
    startsSymbol first = true ∧ ∀ c ∈ symbol.text.toList, continuesSymbol c = true := by
  have wellFormed := symbol.wellFormed
  cases text : symbol.text.toList with
  | nil =>
      rw [text] at wellFormed
      exact absurd wellFormed Bool.false_ne_true
  | cons first rest =>
      rw [text, isSymbolText, Bool.and_eq_true, Bool.and_eq_true] at wellFormed
      refine ⟨first, rest, rfl, wellFormed.1.1, fun c member => ?_⟩
      rcases List.mem_cons.mp member with rfl | inRest
      · rw [continuesSymbol, wellFormed.1.1, Bool.true_or, Bool.true_or]
      · exact List.all_eq_true.mp wellFormed.1.2 c inRest

/-! ## Words -/

/-- The text of a word: at least one character, and none that ends it. -/
def IsWord (text : List Char) : Prop :=
  text ≠ [] ∧ ∀ c ∈ text, isDelimiter c = false

/-- A symbol is a word. -/
theorem isWord_symbol (symbol : Symbol) : IsWord symbol.text.toList := by
  obtain ⟨first, rest, text, -, continues⟩ := symbol_characters symbol
  refine ⟨?_, fun c member => isDelimiter_eq_false_of_continuesSymbol (continues c member)⟩
  rw [text]
  exact List.cons_ne_nil first rest

/-- A word is read up to a delimiter or the end. -/
theorem word_of_rest {cursor : Cursor} {text following : List Char} (isWord : IsWord text)
    (rest : cursor.rest = text ++ following) (ends : EndsWord following) :
    ∃ behind, word cursor = .ok (text, behind) ∧ behind.rest = following := by
  have passes : ∀ c ∈ text, (!isDelimiter c) = true := by
    intro c member
    rw [isWord.2 c member]
    rfl
  have stops : following.takeWhile (fun c => !isDelimiter c) = [] ∧
      following.dropWhile (fun c => !isDelimiter c) = following := by
    cases following with
    | nil => exact ⟨rfl, rfl⟩
    | cons c others => simp [ends c rfl]
  refine ⟨cursor.skip fun c => !isDelimiter c, ?_, ?_⟩
  · obtain ⟨first, others, shape⟩ := List.exists_cons_of_ne_nil isWord.1
    have free : isDelimiter first = false :=
      isWord.2 first (by rw [shape]; exact List.mem_cons_self ..)
    have front : cursor.rest = first :: (others ++ following) := by
      rw [rest, shape, List.cons_append]
    rw [word.eq_def, front]
    simp only [free, Bool.false_eq_true, ↓reduceIte, ← front]
    rw [rest, List.takeWhile_append_of_pos passes, stops.1, List.append_nil]
  · rw [Cursor.skip, rest, List.dropWhile_append_of_pos passes, stops.2]

/-- The text of a symbol is read as this symbol. -/
theorem symbolAt_text (position : Position) (symbol : Symbol) :
    symbolAt position symbol.text.toList = .ok symbol := by
  rw [symbolAt, String.ofList_toList, Symbol.ofText?_text]

/-- A symbol in front is read as a head. -/
theorem headWord_of_rest {cursor : Cursor} {head : Symbol} {following : List Char}
    (rest : cursor.rest = head.text.toList ++ following) (ends : EndsWord following) :
    ∃ behind, headWord cursor = .ok (head, behind) ∧ behind.rest = following := by
  obtain ⟨behind, read, left⟩ := word_of_rest (isWord_symbol head) rest ends
  refine ⟨behind, ?_, left⟩
  simp only [headWord, read, bind, Except.bind, head.isNumeral_eq_false, symbolAt_text,
    Bool.false_eq_true, ↓reduceIte]
  rfl

/-- A symbol behind the sign of variables is read as a name. -/
theorem variableWord_of_rest {cursor : Cursor} {name : Symbol} {following : List Char}
    (rest : cursor.rest = '$' :: (name.text.toList ++ following)) (ends : EndsWord following) :
    ∃ behind, variableWord cursor = .ok (.variable name, behind) ∧ behind.rest = following := by
  have inside : (cursor.advance 1).rest = name.text.toList ++ following := by
    rw [Cursor.advance, rest]
    rfl
  obtain ⟨behind, read, left⟩ := word_of_rest (isWord_symbol name) inside ends
  refine ⟨behind, ?_, left⟩
  simp only [variableWord, read, bind, Except.bind, symbolAt_text]
  rfl

/-- A symbol in front is read as an argument. -/
theorem plainWord_of_symbol {cursor : Cursor} {symbol : Symbol} {following : List Char}
    (rest : cursor.rest = symbol.text.toList ++ following) (ends : EndsWord following) :
    ∃ behind, plainWord cursor = .ok (.symbol symbol, behind) ∧ behind.rest = following := by
  obtain ⟨behind, read, left⟩ := word_of_rest (isWord_symbol symbol) rest ends
  refine ⟨behind, ?_, left⟩
  simp only [plainWord, read, bind, Except.bind, symbol.isNumeral_eq_false, symbolAt_text,
    Bool.false_eq_true, ↓reduceIte]
  rfl

/-! ## Numerals -/

/-- The text of a finite number is a word. -/
theorem isWord_plain_text {x : Float} (finite : Decimal.isFinite x = true) :
    IsWord (Decimal.Layout.plain.text x).toList := by
  refine ⟨Decimal.plain_text_ne_nil finite, fun c member => ?_⟩
  rcases Decimal.mem_plain_text finite member with digit | rfl | rfl
  · apply isDelimiter_eq_false_of_continuesSymbol
    rw [continuesSymbol, digit, Bool.or_true]
  · decide
  · decide

/-- A numeral in front is read as its number. -/
theorem plainWord_of_numeral {cursor : Cursor} {text following : List Char} {value : Float}
    (isWord : IsWord text) (numeral : Decimal.isNumeral text = true)
    (reads : Decimal.scientific? text = some value) (rest : cursor.rest = text ++ following)
    (ends : EndsWord following) :
    ∃ behind, plainWord cursor = .ok (.number value, behind) ∧ behind.rest = following := by
  obtain ⟨behind, read, left⟩ := word_of_rest isWord rest ends
  refine ⟨behind, ?_, left⟩
  simp only [plainWord, read, bind, Except.bind, numeral, reads, ↓reduceIte]
  rfl

/-! ## Texts between quotes -/

/-- A known escape is read as the character that it means. -/
theorem textBody_escape {code meant : Char} (known : unescaped? code = some meant)
    (opening : Position) (rest : List Char) (position : Position) :
    textBody opening ('\\' :: code :: rest) position =
      (textBody opening rest ((position.next '\\').next code)).map
        fun read => (meant :: read.1, read.2) := by
  simp only [textBody, known]
  cases textBody opening rest ((position.next '\\').next code) <;> rfl

/-- Any other character is read as itself. -/
theorem textBody_plain {c : Char} (quote : c ≠ '"') (backslash : c ≠ '\\') (opening : Position)
    (rest : List Char) (position : Position) :
    textBody opening (c :: rest) position =
      (textBody opening rest (position.next c)).map fun read => (c :: read.1, read.2) := by
  rw [textBody.eq_def]
  split <;> simp_all [Except.map]
  split <;> simp_all

/-- An escaped character is read as itself. -/
theorem textBody_escaped (opening : Position) (c : Char) (rest : List Char) (position : Position) :
    ∃ later, textBody opening (escaped c ++ rest) position =
      (textBody opening rest later).map fun read => (c :: read.1, read.2) := by
  rw [escaped.eq_def]
  split
  case h_6 quote backslash _ _ _ => exact ⟨_, textBody_plain quote backslash opening rest position⟩
  all_goals exact ⟨_, textBody_escape rfl opening rest position⟩

/-- An escaped text is read back up to its quote. -/
theorem textBody_flatMap_escaped (opening : Position) (text following : List Char)
    (position : Position) :
    ∃ behind, textBody opening (text.flatMap escaped ++ '"' :: following) position =
      .ok (text, behind) ∧ behind.rest = following := by
  induction text generalizing position with
  | nil => exact ⟨_, rfl, rfl⟩
  | cons c text ih =>
      rw [List.flatMap_cons, List.append_assoc]
      obtain ⟨later, first⟩ := textBody_escaped opening c (text.flatMap escaped ++ '"' :: following)
        position
      obtain ⟨behind, read, left⟩ := ih later
      rw [first, read]
      exact ⟨behind, rfl, left⟩

/-- What follows the opening quote of a written text does not make it three quotes. -/
theorem not_rawQuotes (text : List Char) {following : List Char} (parted : Parted following) :
    rawQuotes.isPrefixOf (quotedText text following) = false := by
  rw [quotedText]
  cases text with
  | nil =>
      cases following with
      | nil => decide
      | cons c rest =>
          have other : ('"' == c) = false := by
            rw [beq_eq_false_iff_ne]
            rintro rfl
            exact absurd (parted '"' rfl) (by decide)
          simp [rawQuotes, List.isPrefixOf, other]
  | cons c text =>
      rw [List.flatMap_cons, escaped.eq_def]
      split
      case h_6 quote _ _ _ _ => simp [rawQuotes, List.isPrefixOf, Ne.symm quote]
      all_goals rfl

/-- A quoted text is read back. -/
theorem quotation_of_rest {cursor : Cursor} {text : String} {following : List Char}
    (rest : cursor.rest = quotedText text.toList following) (parted : Parted following) :
    ∃ behind, quotation cursor = .ok (text, behind) ∧ behind.rest = following := by
  have opened : expect '"' cursor = .ok (cursor.advance 1) := by
    rw [expect, rest]
    rfl
  have inside : (cursor.advance 1).rest = text.toList.flatMap escaped ++ '"' :: following := by
    rw [Cursor.advance, rest]
    rfl
  obtain ⟨behind, read, left⟩ := textBody_flatMap_escaped cursor.position text.toList following
    (cursor.advance 1).position
  refine ⟨behind, ?_, left⟩
  rw [quotation, rest, not_rawQuotes text.toList parted, opened]
  simp only [Bool.false_eq_true, ↓reduceIte, inside, read, String.ofList_toList]

end CommandScript.Source
