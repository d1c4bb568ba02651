import CommandScript.Decimal.Numeral
import CommandScript.Text.CasedLetter
import CommandScript.Text.Quoted

/-!
# Symbols

A symbol names commands, variables, functions and channels, and stands for itself as a value. It
starts with a cased letter or a punctuation mark and goes on with letters, marks, the dollar sign
and digits; a text of the shape of a numeral is not a symbol, because the reader takes it as a
number. Symbols are ordered by the code points of their texts.
-/

namespace CommandScript

/-- The punctuation marks that may stand anywhere in a symbol. -/
def symbolMarks : List Char :=
  ['!', '?', '.', '\\', '-', '+', '*', '&', '^', '%', '#', '@', '~']

/-- The character may be the first of a symbol. -/
def startsSymbol (c : Char) : Bool :=
  Text.isCasedLetter c || symbolMarks.contains c

/-- The character may stand after the first of a symbol. -/
def continuesSymbol (c : Char) : Bool :=
  startsSymbol c || c == '$' || c.isDigit

/-- The text is the text of a symbol. -/
def isSymbolText : List Char → Bool
  | [] => false
  | first :: rest =>
    startsSymbol first && rest.all continuesSymbol && !Decimal.isNumeral (first :: rest)

/-- A symbol: a text of the required shape. -/
structure Symbol where
  text : String
  wellFormed : isSymbolText text.toList = true
deriving DecidableEq

/-- A text that is not the text of a symbol. -/
structure InvalidSymbol where
  text : String
deriving DecidableEq, Repr

/-- How the failure is told. -/
def InvalidSymbol.message (error : InvalidSymbol) : String :=
  Text.quoted error.text ++ " is not a valid symbol"

namespace Symbol

/-- The symbol with the given text. -/
def ofText? (text : String) : Except InvalidSymbol Symbol :=
  if wellFormed : isSymbolText text.toList = true then .ok ⟨text, wellFormed⟩ else .error ⟨text⟩

/-- The symbol as a diagnostic names it. -/
def inspected (symbol : Symbol) : String :=
  "Symbol(" ++ symbol.text ++ ")"

/-- The order of symbols is the order of their texts by code points. -/
def order (a b : Symbol) : Ordering :=
  compare (a.text.toList.map Char.toNat) (b.text.toList.map Char.toNat)

/-- One symbol stands before another or equals it. -/
def precedes (a b : Symbol) : Bool :=
  order a b != .gt

/-- Symbols with the same text are the same. -/
theorem ext_text {a b : Symbol} (htext : a.text = b.text) : a = b := by
  cases a
  cases b
  simp_all

/-- The text of a symbol is one of a symbol. -/
theorem ofText?_text (symbol : Symbol) : ofText? symbol.text = .ok symbol := by
  unfold ofText?
  rw [dif_pos symbol.wellFormed]

/-- A text is taken for a symbol as it is. -/
theorem ofText?_eq_ok_iff {text : String} {symbol : Symbol} :
    ofText? text = .ok symbol ↔ symbol.text = text := by
  constructor
  · intro h
    unfold ofText? at h
    split at h
    · injection h with h
      rw [← h]
    · cases h
  · rintro rfl
    exact ofText?_text symbol

/-- A text is refused just when it is not that of a symbol, and the error names it. -/
theorem ofText?_eq_error_iff {text : String} {error : InvalidSymbol} :
    ofText? text = .error error ↔ isSymbolText text.toList = false ∧ error = ⟨text⟩ := by
  unfold ofText?
  split
  · rename_i h
    rw [h]
    simp
  · rename_i h
    rw [Bool.not_eq_true] at h
    simp only [h, true_and, Except.error.injEq]
    exact eq_comm

/-- A symbol is never read as a number. -/
theorem isNumeral_eq_false (symbol : Symbol) : Decimal.isNumeral symbol.text.toList = false := by
  have h := symbol.wellFormed
  cases htext : symbol.text.toList with
  | nil => rw [htext] at h; exact absurd h (by decide)
  | cons first rest =>
    rw [htext, isSymbolText, Bool.and_eq_true, Bool.not_eq_true'] at h
    exact h.2

end Symbol

/-! ## The symbols of the runtime -/

namespace Keyword

/-- The value of a condition that holds. -/
def yes : Symbol := ⟨"true", by decide⟩

/-- The value of a condition that does not hold. -/
def no : Symbol := ⟨"false", by decide⟩

/-- The head of the command that a block in command position stands for. -/
def block : Symbol := ⟨"do", by decide⟩

/-- The channel of ordinary output. -/
def stdout : Symbol := ⟨"stdout", by decide⟩

/-- The channel of diagnostics. -/
def stderr : Symbol := ⟨"stderr", by decide⟩

/-- The channel of input. -/
def stdin : Symbol := ⟨"stdin", by decide⟩

/-- The scope of the default channels. -/
def localScope : Symbol := ⟨"local", by decide⟩

end Keyword

end CommandScript
