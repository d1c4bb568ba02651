import CommandScript.Source.Cursor

/-!
# Why a source text is not a program

A source text is refused at a position for a reason. Three of the reasons guard places that no text
reaches, and one says that the reader was given too few steps.
-/

namespace CommandScript.Source

/-- The reason a source text is refused. -/
inductive Fault where
  /-- A character that cannot stand here. -/
  | unexpected (found : Char)
  /-- The text ends where a word should stand. -/
  | unexpectedEnd
  /-- One character was required and another stands there. -/
  | expected (wanted found : Char)
  /-- One character was required and the text ends. -/
  | expectedBeforeEnd (wanted : Char)
  /-- A character that cannot follow a command. -/
  | afterCommand (found : Char)
  | unterminatedBlock
  | unterminatedList
  | unterminatedText
  | unterminatedRawText
  /-- A number stands where a command is called. -/
  | numberAsHead (word : List Char)
  | invalidSymbol (error : InvalidSymbol)
  /-- A word of the shape of a numeral that spells no number. -/
  | badNumber (word : List Char)
  /-- A backslash in front of a character that it does not escape. -/
  | unknownEscape (found : Char)
  /-- The reader was given too few steps. -/
  | exhausted
deriving DecidableEq, Repr

/-- A character between apostrophes. -/
def apostrophed (c : Char) : String :=
  String.ofList ['\'', c, '\'']

/-- How the reason is told. -/
def Fault.message : Fault → String
  | .unexpected found => "unexpected " ++ apostrophed found
  | .unexpectedEnd => "unexpected end of input"
  | .expected wanted found => "expected " ++ apostrophed wanted ++ ", found " ++ apostrophed found
  | .expectedBeforeEnd wanted => "expected " ++ apostrophed wanted ++ ", found end of input"
  | .afterCommand found => "unexpected " ++ apostrophed found ++ " after command"
  | .unterminatedBlock => "unterminated block"
  | .unterminatedList => "unterminated list"
  | .unterminatedText => "unterminated string"
  | .unterminatedRawText => "unterminated raw string"
  | .numberAsHead word => "command name expected, found number " ++ String.ofList word
  | .invalidSymbol error => error.message
  | .badNumber word => "bad number " ++ String.ofList word ++ ": invalid float literal"
  | .unknownEscape found => "unknown escape " ++ String.ofList ['\'', '\\', found, '\'']
  | .exhausted => "too few steps"

/-- A fault and where it was found. -/
structure ParseError where
  position : Position
  fault : Fault
deriving DecidableEq, Repr

/-- How the error is told: the place, then the reason. -/
def ParseError.message (error : ParseError) : String :=
  "line " ++ toString error.position.line ++ ":" ++ toString error.position.column ++ " " ++
    error.fault.message

end CommandScript.Source
