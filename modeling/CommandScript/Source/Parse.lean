import CommandScript.Source.ParseError
import CommandScript.Source.Tree
import CommandScript.Text.Blank

/-!
# Reading a source text

A script is a block in braces or a sequence of commands. Commands are parted by semicolons and line
feeds; behind a bare block the separator may be missing. A command is a word, its head, and the
arguments up to the end of the line; a block in command position is read as a command that runs it.
An argument is a word, a number, a variable, a quoted text, a list in brackets or a block. Line
feeds mean nothing inside lists and between commands.

The functions that read nested parts are bounded by a number of steps; `parse` starts them with
enough of them for any text of the given length.
-/

namespace CommandScript.Source

/-- The refusal of a text at the cursor. -/
def Cursor.refuse {α : Type} (cursor : Cursor) (fault : Fault) : Except ParseError α :=
  .error ⟨cursor.position, fault⟩

/-- The character ends a word. -/
def isDelimiter (c : Char) : Bool :=
  Text.isBlank c || [';', '{', '}', '[', ']', '"'].contains c

/-- The character is a blank that does not end a line. -/
def isInlineBlank (c : Char) : Bool :=
  Text.isBlank c && c != '\n'

/-- The character may stand between commands. -/
def isSeparator (c : Char) : Bool :=
  Text.isBlank c || c == ';'

/-- Reads one required character. -/
def expect (wanted : Char) (cursor : Cursor) : Except ParseError Cursor :=
  match cursor.rest with
  | [] => cursor.refuse (.expectedBeforeEnd wanted)
  | found :: _ =>
    if found = wanted then .ok (cursor.advance 1) else cursor.refuse (.expected wanted found)

/-! ## Words and texts -/

/-- Reads the characters up to the next delimiter; there must be at least one. -/
def word (cursor : Cursor) : Except ParseError (List Char × Cursor) :=
  match cursor.rest with
  | [] => cursor.refuse .unexpectedEnd
  | found :: _ =>
    if isDelimiter found then cursor.refuse (.unexpected found)
    else
      .ok (cursor.rest.takeWhile fun c => !isDelimiter c, cursor.skip fun c => !isDelimiter c)

/-- The symbol that a word spells, refused at the given position if it spells none. -/
def symbolAt (position : Position) (word : List Char) : Except ParseError Symbol :=
  match Symbol.ofText? (String.ofList word) with
  | .ok symbol => .ok symbol
  | .error error => .error ⟨position, .invalidSymbol error⟩

/-- The character that stands for a character behind a backslash. -/
def unescaped? (c : Char) : Option Char :=
  match c with
  | 'n' => some '\n'
  | 't' => some '\t'
  | 'r' => some '\r'
  | '"' => some '"'
  | '\\' => some '\\'
  | _ => none

/-- Reads a text up to the quote that closes it, with its escapes; `opening` is where it started. -/
def textBody (opening : Position) : List Char → Position → Except ParseError (List Char × Cursor)
  | [], _ => .error ⟨opening, .unterminatedText⟩
  | '"' :: rest, position => .ok ([], ⟨rest, position.next '"'⟩)
  | ['\\'], _ => .error ⟨opening, .unterminatedText⟩
  | '\\' :: c :: rest, position =>
    let behind := (position.next '\\').next c
    match unescaped? c with
    | none => .error ⟨behind, .unknownEscape c⟩
    | some meant =>
      match textBody opening rest behind with
      | .ok (text, cursor) => .ok (meant :: text, cursor)
      | .error error => .error error
  | c :: rest, position =>
    match textBody opening rest (position.next c) with
    | .ok (text, cursor) => .ok (c :: text, cursor)
    | .error error => .error error

/-- Three quotes open and close a raw text. -/
def rawQuotes : List Char :=
  ['"', '"', '"']

/-- Reads a raw text up to the first three quotes in a row; `opening` is where it started. -/
def rawTextBody (opening : Position) : List Char → Position → Except ParseError (List Char × Cursor)
  | [], _ => .error ⟨opening, .unterminatedRawText⟩
  | c :: rest, position =>
    if rawQuotes.isPrefixOf (c :: rest) then .ok ([], Cursor.advance ⟨c :: rest, position⟩ 3)
    else
      match rawTextBody opening rest (position.next c) with
      | .ok (text, cursor) => .ok (c :: text, cursor)
      | .error error => .error error

/-- Reads a text in quotes or a raw text. -/
def quotation (cursor : Cursor) : Except ParseError (String × Cursor) :=
  let body :=
    if rawQuotes.isPrefixOf cursor.rest then
      let inside := cursor.advance 3
      rawTextBody cursor.position inside.rest inside.position
    else
      match expect '"' cursor with
      | .ok inside => textBody cursor.position inside.rest inside.position
      | .error error => .error error
  match body with
  | .ok (text, behind) => .ok (String.ofList text, behind)
  | .error error => .error error

/-- Reads the name of a variable behind its sign; a bad name is refused at the sign. -/
def variableWord (cursor : Cursor) : Except ParseError (Argument × Cursor) := do
  let (name, behind) ← word (cursor.advance 1)
  let name ← symbolAt cursor.position name
  return (.variable name, behind)

/-- Reads a number or a symbol. -/
def plainWord (cursor : Cursor) : Except ParseError (Argument × Cursor) := do
  let (text, behind) ← word cursor
  if Decimal.isNumeral text then
    match Decimal.scientific? text with
    | some value => return (.number value, behind)
    | none => cursor.refuse (.badNumber text)
  else
    let symbol ← symbolAt cursor.position text
    return (.symbol symbol, behind)

/-- Reads the head of a command. -/
def headWord (cursor : Cursor) : Except ParseError (Symbol × Cursor) := do
  let (text, behind) ← word cursor
  if Decimal.isNumeral text then
    cursor.refuse (.numberAsHead text)
  else
    let head ← symbolAt cursor.position text
    return (head, behind)

/-- The check on what follows a command: the end, a separator, the brace that closes the block, or
anything at all behind a bare block. -/
def afterCommand (inBlock : Bool) (command : Command) (cursor : Cursor) : Except ParseError Unit :=
  match cursor.rest with
  | [] => .ok ()
  | c :: _ =>
    if c = ';' ∨ c = '\n' ∨ (inBlock ∧ c = '}') ∨ isBareBlock command.head command.args then .ok ()
    else cursor.refuse (.afterCommand c)

/-! ## Nested parts -/

mutual

/-- Reads a block with its braces. -/
def block : Nat → Cursor → Except ParseError (Script × Cursor)
  | 0, cursor => cursor.refuse .exhausted
  | steps + 1, cursor => do
    let inside ← expect '{' cursor
    let (script, closing) ← commands steps true inside
    let behind ← expect '}' closing
    return (script, behind)

/-- Reads commands up to the end, or in a block up to the brace that closes it. -/
def commands : Nat → Bool → Cursor → Except ParseError (Script × Cursor)
  | 0, _, cursor => cursor.refuse .exhausted
  | steps + 1, inBlock, cursor => do
    let start := cursor.skip isSeparator
    match start.rest with
    | [] => if inBlock then start.refuse .unterminatedBlock else return ([], start)
    | c :: _ =>
      if inBlock && c == '}' then return ([], start)
      else
        let (first, behind) ← command steps inBlock start
        afterCommand inBlock first behind
        let (rest, finish) ← commands steps inBlock behind
        return (first :: rest, finish)

/-- Reads one command: a block, or a head with its arguments. -/
def command : Nat → Bool → Cursor → Except ParseError (Command × Cursor)
  | 0, _, cursor => cursor.refuse .exhausted
  | steps + 1, inBlock, cursor => do
    match cursor.rest with
    | '{' :: _ =>
      let (script, behind) ← block steps cursor
      return (.mk Keyword.block [.script script], behind.skip isInlineBlank)
    | _ =>
      let (head, behind) ← headWord cursor
      let (args, finish) ← arguments steps inBlock behind
      return (.mk head args, finish)

/-- Reads the arguments of a command up to its end. -/
def arguments : Nat → Bool → Cursor → Except ParseError (List Argument × Cursor)
  | 0, _, cursor => cursor.refuse .exhausted
  | steps + 1, inBlock, cursor => do
    let start := cursor.skip isInlineBlank
    match start.rest with
    | [] => return ([], start)
    | c :: _ =>
      if c == ';' || c == '\n' || (inBlock && c == '}') then return ([], start)
      else
        let (first, behind) ← argument steps start
        let (rest, finish) ← arguments steps inBlock behind
        return (first :: rest, finish)

/-- Reads one argument. -/
def argument : Nat → Cursor → Except ParseError (Argument × Cursor)
  | 0, cursor => cursor.refuse .exhausted
  | steps + 1, cursor => do
    match cursor.rest with
    | '{' :: _ =>
      let (script, behind) ← block steps cursor
      return (.script script, behind)
    | '[' :: _ =>
      let inside ← expect '[' cursor
      let (list, behind) ← items steps inside
      return (.list list, behind)
    | '"' :: _ =>
      let (text, behind) ← quotation cursor
      return (.text text, behind)
    | '$' :: _ => variableWord cursor
    | '}' :: _ => cursor.refuse (.unexpected '}')
    | ']' :: _ => cursor.refuse (.unexpected ']')
    | _ => plainWord cursor

/-- Reads the items of a list and the bracket that closes it. -/
def items : Nat → Cursor → Except ParseError (List Argument × Cursor)
  | 0, cursor => cursor.refuse .exhausted
  | steps + 1, cursor => do
    let start := cursor.skip Text.isBlank
    match start.rest with
    | [] => start.refuse .unterminatedList
    | c :: _ =>
      if c == ']' then return ([], start.advance 1)
      else
        let (first, behind) ← argument steps start
        let (rest, finish) ← items steps behind
        return (first :: rest, finish)

end

/-! ## Whole sources -/

/-- A number of steps that suffices for every text of the given length. -/
def stepsFor (length : Nat) : Nat :=
  4 * length + 8

/-- Reads a text as a sequence of commands. -/
def parseCommands (text : List Char) : Except ParseError Script :=
  (commands (stepsFor text.length) false (Cursor.ofText text)).map Prod.fst

/-- Reads a source text. A single block with nothing but separators around it is the script itself;
every other text is a sequence of commands. An error inside a block at the front is final. -/
def parse (text : List Char) : Except ParseError Script :=
  let start := (Cursor.ofText text).skip Text.isBlank
  match start.rest with
  | '{' :: _ =>
    match block (stepsFor text.length) start with
    | .error error => .error error
    | .ok (script, behind) =>
      if (behind.skip isSeparator).rest.isEmpty then .ok script else parseCommands text
  | _ => parseCommands text

/-- Reads a source text. -/
def Script.parse (text : String) : Except ParseError Script :=
  Source.parse text.toList

end CommandScript.Source
