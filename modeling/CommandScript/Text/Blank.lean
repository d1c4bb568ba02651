import CommandScript.Text.CodePoints

/-!
# Blanks

The characters with the Unicode property `White_Space`. Words end at them, lines are trimmed of
them, and between tokens they mean nothing, a line feed inside a command apart.
-/

namespace CommandScript.Text

/-- The ranges of the property `White_Space`: 25 characters in all. -/
def blanks : CodePoints :=
  [(0x9, 0xD), (0x20, 0x20), (0x85, 0x85), (0xA0, 0xA0), (0x1680, 0x1680), (0x2000, 0x200A),
    (0x2028, 0x2029), (0x202F, 0x202F), (0x205F, 0x205F), (0x3000, 0x3000)]

/-- The character is a blank. -/
def isBlank (c : Char) : Bool :=
  blanks.contains c

/-- The blank characters of the ASCII range are blank. -/
theorem isBlank_of_isWhitespace {c : Char} (h : c.isWhitespace = true) : isBlank c = true := by
  simp only [Char.isWhitespace, Bool.or_eq_true, decide_eq_true_eq] at h
  rcases h with ((rfl | rfl) | rfl) | rfl <;> decide

end CommandScript.Text
