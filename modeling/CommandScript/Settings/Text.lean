import CommandScript.Decimal.Numeral
import CommandScript.Settings.Basic
import CommandScript.Text.Line
import CommandScript.Text.Quoted

/-!
# Configuration texts

A configuration text sets one thing per line, as `name = value`. Blank lines and lines that start
with a semicolon say nothing. A line that cannot be understood is reported with its number and
otherwise passed over, so that the text as a whole always yields settings: the defaults, overridden
by its assignments in order.
-/

namespace CommandScript

/-- Why a line is not an assignment. -/
inductive SettingsFault where
  /-- The line has no equals sign. -/
  | noAssignment (line : String)
  | unknownSetting (name : String)
  | unknownChannel (name : String)
  | unknownPolicy (name : String)
  | notPositive (name value : String)
deriving DecidableEq, Repr

/-- How the reason is told. -/
def SettingsFault.message : SettingsFault → String
  | .noAssignment line => "expected `name = value`, got " ++ Text.quoted line
  | .unknownSetting name => "unknown setting " ++ Text.quoted name
  | .unknownChannel name => "unknown channel " ++ Text.quoted name
  | .unknownPolicy name => "unknown overflow policy " ++ Text.quoted name
  | .notPositive name value => name ++ " must be a positive integer, got " ++ Text.quoted value

/-- A line that was passed over. -/
structure SettingsError where
  line : Nat
  fault : SettingsFault
deriving DecidableEq, Repr

/-- How the error is told. -/
def SettingsError.message (error : SettingsError) : String :=
  "line " ++ toString error.line ++ ": " ++ error.fault.message

/-- The channel that a name stands for. -/
def Channel.ofName? (name : String) : Option Channel :=
  match name with
  | "stdout" => some .stdout
  | "stderr" => some .stderr
  | "stdin" => some .stdin
  | "channel" => some .further
  | _ => none

/-- The least number that no setting can hold. -/
def settingBound : Nat :=
  Nat.pow 2 64

/-- The number spelled by an optional plus sign and digits, if it is positive and below the
bound. -/
def positive? (text : List Char) : Option Nat :=
  let digits :=
    match text with
    | '+' :: rest => rest
    | rest => rest
  let value := Decimal.digitsValue digits
  if Decimal.isDigits digits && 0 < value && value < settingBound then some value else none

/-- The text without a pair of quotes around it. -/
def unquoted (text : List Char) : List Char :=
  match text with
  | '"' :: rest => if rest.getLast? = some '"' then rest.dropLast else text
  | _ => text

/-- The positive number that the value of a setting spells. -/
def readPositive (name value : List Char) : Except SettingsFault Nat :=
  match positive? value with
  | some number => .ok number
  | none => .error (.notPositive (String.ofList name) (String.ofList value))

/-- The assignment of a value to the setting with the given name. -/
def readAssignment (name value : List Char) : Except SettingsFault Assignment :=
  if name = "mailbox.requests".toList then
    (readPositive name value).map .requests
  else
    match Text.splitOnce '.' name with
    | none => .error (.unknownSetting (String.ofList name))
    | some (channelName, field) =>
      match Channel.ofName? (String.ofList channelName) with
      | none => .error (.unknownChannel (String.ofList channelName))
      | some channel =>
        if field = "capacity".toList then
          (readPositive name value).map (.capacity channel)
        else if field = "policy".toList then
          match Mailbox.Policy.ofName? (String.ofList value) with
          | some policy => .ok (.policy channel policy)
          | none => .error (.unknownPolicy (String.ofList value))
        else .error (.unknownSetting (String.ofList name))

/-- What a line says: nothing, or an assignment. -/
def readLine (line : List Char) : Except SettingsFault (Option Assignment) :=
  let content := Text.trim line
  match content with
  | [] => .ok none
  | ';' :: _ => .ok none
  | content =>
    match Text.splitOnce '=' content with
    | none => .error (.noAssignment (String.ofList content))
    | some (name, value) =>
      (readAssignment (Text.trim name) (unquoted (Text.trim value))).map some

/-- The settings and the errors after the given lines, of which the first has the given number. -/
def Settings.readLines (settings : Settings) (number : Nat) :
    List (List Char) → Settings × List SettingsError
  | [] => (settings, [])
  | line :: rest =>
    match readLine line with
    | .ok none => settings.readLines (number + 1) rest
    | .ok (some assignment) => (settings.assign assignment).readLines (number + 1) rest
    | .error fault =>
      let (final, errors) := settings.readLines (number + 1) rest
      (final, ⟨number, fault⟩ :: errors)

/-- The settings that a configuration text makes, and its errors in order. -/
def Settings.ofText (text : String) : Settings × List SettingsError :=
  Settings.default.readLines 1 (Text.lines text.toList)

end CommandScript
