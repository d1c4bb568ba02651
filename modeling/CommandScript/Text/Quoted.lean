import CommandScript.Text.Unprintable

/-!
# Text quoted in a diagnostic

A diagnostic shows foreign text between double quotes, with every character that would not be seen
written as an escape: the usual letters for the tabulator, the carriage return, the line feed and
the null character, and the code point in hexadecimal for the others. An apostrophe stays as it is.
-/

namespace CommandScript.Text

/-- The code point of a character in lowercase hexadecimal, between braces after `\u`. -/
def codePointEscape (c : Char) : String :=
  "\\u\x7b" ++ String.ofList (Nat.toDigits 16 c.toNat) ++ "\x7d"

/-- How one character is shown between the quotes. -/
def shown (c : Char) : String :=
  match c with
  | '\t' => "\\t"
  | '\r' => "\\r"
  | '\n' => "\\n"
  | '\x00' => "\\0"
  | '"' => "\\\""
  | '\\' => "\\\\"
  | c => if isUnprintable c then codePointEscape c else c.toString

/-- A text between double quotes, every character as it is shown. -/
def quoted (text : String) : String :=
  text.foldl (fun out c => out ++ shown c) "\"" ++ "\""

/-- A condition as a diagnostic tells it. -/
def truthText (condition : Bool) : String :=
  if condition then "true" else "false"

end CommandScript.Text
