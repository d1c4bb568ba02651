import CommandScript.Proofs.Decimal.Shape
import CommandScript.Proofs.Text.Line
import CommandScript.Settings.Text

/-!
# What a line of a configuration text says

There are nine settings, and each has one name. A line is an assignment if it consists of such a
name, an equals sign and a value, with blanks around the name and around the value; the value may
stand in quotes. A line says nothing if it is blank or a comment. Every other line is refused.
-/

namespace CommandScript

open CommandScript.Text

/-! ## Settings and values -/

/-- One of the things that are set. -/
inductive Setting where
  | capacity (channel : Channel)
  | policy (channel : Channel)
  | requests
deriving DecidableEq, Repr

/-- The name of a channel in configuration texts. -/
def Channel.name : Channel → String
  | .stdout => "stdout"
  | .stderr => "stderr"
  | .stdin => "stdin"
  | .further => "channel"

/-- The name of a setting in configuration texts. -/
def Setting.name : Setting → String
  | .capacity channel => channel.name ++ ".capacity"
  | .policy channel => channel.name ++ ".policy"
  | .requests => "mailbox.requests"

/-- The setting to which a value is assigned. -/
def Assignment.setting : Assignment → Setting
  | .capacity channel _ => .capacity channel
  | .policy channel _ => .policy channel
  | .requests _ => .requests

/-- Digits, with or without a plus sign, spell a positive number below the bound. -/
def SpellsPositive (text : List Char) (number : Nat) : Prop :=
  ∃ digits, (text = digits ∨ text = '+' :: digits) ∧ Decimal.isDigits digits = true ∧
    Decimal.digitsValue digits = number ∧ 0 < number ∧ number < settingBound

/-- The text spells the value that is assigned. -/
def Assignment.IsSpelledBy (text : List Char) : Assignment → Prop
  | .capacity _ value => SpellsPositive text value
  | .policy _ value => Mailbox.Policy.ofName? (String.ofList text) = some value
  | .requests value => SpellsPositive text value

/-! ## Lines -/

/-- The line has a semicolon behind blanks. -/
def IsComment (line : List Char) : Prop :=
  ∃ blanks rest, line = blanks ++ ';' :: rest ∧ IsBlankText blanks

/-- The line is a valid assignment. -/
def Assigns (line : List Char) (assignment : Assignment) : Prop :=
  ∃ left right written value, line = left ++ '=' :: right ∧
    Pads assignment.setting.name.toList left ∧ Pads written right ∧
    (written = value ∨ written = '"' :: (value ++ ['"'])) ∧ assignment.IsSpelledBy value

/-- The line is neither blank nor a comment nor a valid assignment. -/
def IsRefused (line : List Char) : Prop :=
  ¬ IsBlankText line ∧ ¬ IsComment line ∧ ∀ assignment, ¬ Assigns line assignment

/-! ## Names -/

/-- A channel is found by its name and by no other. -/
theorem Channel.ofName?_eq_some_iff {name : String} {channel : Channel} :
    Channel.ofName? name = some channel ↔ name = channel.name := by
  constructor
  · intro named
    unfold Channel.ofName? at named
    split at named
    · cases named; rfl
    · cases named; rfl
    · cases named; rfl
    · cases named; rfl
    · cases named
  · rintro rfl
    cases channel <;> rfl

/-- A name has no character that means something in a line. -/
theorem Setting.name_plain (setting : Setting) : setting.name.toList ≠ [] ∧
    ∀ c ∈ setting.name.toList, isBlank c = false ∧ c ≠ '=' ∧ c ≠ ';' := by
  have checked : (setting.name.toList.all fun c => !isBlank c && c != '=' && c != ';') = true := by
    rcases setting with ⟨⟨⟩⟩ | ⟨⟨⟩⟩ | _ <;> decide
  constructor
  · rcases setting with ⟨⟨⟩⟩ | ⟨⟨⟩⟩ | _ <;> decide
  · simpa [and_assoc] using checked

/-! ## Values -/

/-- Digits are not blank. -/
theorem isBlank_eq_false_of_isDigit {c : Char} (digit : c.isDigit = true) : isBlank c = false := by
  simp only [Char.isDigit, Bool.and_eq_true, decide_eq_true_eq] at digit
  have low : 48 ≤ c.toNat := digit.1
  have high : c.toNat ≤ 57 := digit.2
  rw [Bool.eq_false_iff]
  intro blank
  obtain ⟨range, member, first, last⟩ := (CodePoints.contains_iff blanks c).mp blank
  have apart : ∀ range ∈ blanks, range.2 < 48 ∨ 57 < range.1 := by decide
  have := apart range member
  omega

/-- A spelled number has neither blanks nor quotes in it. -/
theorem SpellsPositive.plain {text : List Char} {number : Nat}
    (spelled : SpellsPositive text number) :
    text ≠ [] ∧ ∀ c ∈ text, isBlank c = false ∧ c ≠ '"' := by
  obtain ⟨digits, shape, proper, -⟩ := spelled
  obtain ⟨filled, digit⟩ := Decimal.isDigits_iff.mp proper
  have plain : ∀ c ∈ digits, isBlank c = false ∧ c ≠ '"' := by
    intro c member
    refine ⟨isBlank_eq_false_of_isDigit (digit c member), ?_⟩
    rintro rfl
    exact absurd (digit '"' member) (by decide)
  rcases shape with rfl | rfl
  · exact ⟨filled, plain⟩
  · exact ⟨List.cons_ne_nil _ _, List.forall_mem_cons.mpr ⟨by decide, plain⟩⟩

/-- The name of a policy has neither blanks nor quotes in it. -/
theorem plain_of_ofName? {name : String} {policy : Mailbox.Policy}
    (named : Mailbox.Policy.ofName? name = some policy) :
    name.toList ≠ [] ∧ ∀ c ∈ name.toList, isBlank c = false ∧ c ≠ '"' := by
  have checked : name.toList ≠ [] ∧ (name.toList.all fun c => !isBlank c && c != '"') = true := by
    unfold Mailbox.Policy.ofName? at named
    split at named
    all_goals first | decide | cases named
  simpa using checked

/-- A value is not empty and has neither a blank nor a quote. -/
theorem Assignment.IsSpelledBy.plain {text : List Char} {assignment : Assignment}
    (spelled : assignment.IsSpelledBy text) :
    text ≠ [] ∧ ∀ c ∈ text, isBlank c = false ∧ c ≠ '"' := by
  cases assignment with
  | capacity channel value => exact SpellsPositive.plain spelled
  | requests value => exact SpellsPositive.plain spelled
  | policy channel value =>
      have named := plain_of_ofName? spelled
      rwa [String.toList_ofList] at named

/-- A number that is assigned is positive and below the bound. -/
def Assignment.IsBounded : Assignment → Prop
  | .capacity _ value => 1 ≤ value ∧ value < settingBound
  | .policy _ _ => True
  | .requests value => 1 ≤ value ∧ value < settingBound

/-- What a line assigns keeps within the bounds. -/
theorem Assigns.isBounded {row : List Char} {assignment : Assignment}
    (assigns : Assigns row assignment) : assignment.IsBounded := by
  obtain ⟨_, _, _, _, -, -, -, -, spelled⟩ := assigns
  cases assignment with
  | policy channel policy => trivial
  | capacity channel number | requests number =>
      obtain ⟨_, _, _, _, bounds⟩ := spelled
      exact bounds

/-- The reading of numbers accepts just the spelled ones. -/
theorem positive?_eq_some_iff {text : List Char} {number : Nat} :
    positive? text = some number ↔ SpellsPositive text number := by
  have checked : ∀ digits : List Char,
      (if Decimal.isDigits digits && 0 < Decimal.digitsValue digits &&
          Decimal.digitsValue digits < settingBound then some (Decimal.digitsValue digits)
        else none) = some number ↔
      Decimal.isDigits digits = true ∧ Decimal.digitsValue digits = number ∧ 0 < number ∧
        number < settingBound := by
    intro digits
    simp only [Option.ite_none_right_eq_some, Option.some.injEq, Bool.and_eq_true,
      decide_eq_true_eq]
    constructor
    · rintro ⟨⟨⟨proper, positive⟩, bounded⟩, rfl⟩
      exact ⟨proper, rfl, positive, bounded⟩
    · rintro ⟨proper, rfl, positive, bounded⟩
      exact ⟨⟨⟨proper, positive⟩, bounded⟩, rfl⟩
  unfold positive?
  split
  · rename_i rest
    refine (checked rest).trans ⟨fun spells => ⟨rest, .inr rfl, spells⟩, ?_⟩
    rintro ⟨digits, shape | shape, spells⟩
    · rw [← shape] at spells
      exact absurd spells.1 (by simp [Decimal.isDigits])
    · cases shape
      exact spells
  · rename_i signless
    refine (checked text).trans ⟨fun spells => ⟨text, .inl rfl, spells⟩, ?_⟩
    rintro ⟨digits, rfl | rfl, spells⟩
    · exact spells
    · exact absurd rfl (signless digits)

/-- A value is accepted for a capacity just when it spells a number. -/
theorem readPositive_eq_ok_iff {name value : List Char} {number : Nat} :
    readPositive name value = .ok number ↔ SpellsPositive value number := by
  rw [readPositive, ← positive?_eq_some_iff]
  cases positive? value with
  | none => simp
  | some other => simp

/-! ## Assignments -/

/-- No point stands in the name of a channel. -/
theorem Channel.not_mem_name (channel : Channel) : '.' ∉ channel.name.toList := by
  cases channel <;> decide

/-- The name of a capacity has two parts. -/
theorem Setting.name_capacity (channel : Channel) : (Setting.capacity channel).name.toList =
    channel.name.toList ++ '.' :: "capacity".toList := by
  cases channel <;> decide

theorem Setting.name_policy (channel : Channel) : (Setting.policy channel).name.toList =
    channel.name.toList ++ '.' :: "policy".toList := by
  cases channel <;> decide

section Channel

variable (channel : Channel)

/-- A channel is found by the characters of its name. -/
theorem Channel.ofName?_ofList_name :
    Channel.ofName? (String.ofList channel.name.toList) = some channel := by
  rw [String.ofList_toList, Channel.ofName?_eq_some_iff]

/-- The name of a setting is split where that of its channel ends. -/
theorem splitOnce_channel (field : List Char) :
    splitOnce '.' (channel.name.toList ++ '.' :: field) = some (channel.name.toList, field) :=
  splitOnce_eq_some.mpr ⟨rfl, channel.not_mem_name⟩

/-- A spelled number is assigned to the capacity of its channel. -/
theorem readAssignment_capacity {value : List Char} {number : Nat}
    (spelled : SpellsPositive value number) :
    readAssignment (Setting.capacity channel).name.toList value =
      .ok (.capacity channel number) := by
  have other : (Setting.capacity channel).name.toList ≠ "mailbox.requests".toList := by
    cases channel <;> decide
  have cut := splitOnce_channel channel "capacity".toList
  rw [← Setting.name_capacity] at cut
  rw [readAssignment, if_neg other, cut]
  dsimp only
  rw [Channel.ofName?_ofList_name]
  dsimp only
  rw [if_pos rfl, readPositive_eq_ok_iff.mpr spelled]
  rfl

/-- A known policy is assigned to its channel. -/
theorem readAssignment_policy {value : List Char} {policy : Mailbox.Policy}
    (named : Mailbox.Policy.ofName? (String.ofList value) = some policy) :
    readAssignment (Setting.policy channel).name.toList value = .ok (.policy channel policy) := by
  have other : (Setting.policy channel).name.toList ≠ "mailbox.requests".toList := by
    cases channel <;> decide
  have cut := splitOnce_channel channel "policy".toList
  rw [← Setting.name_policy] at cut
  rw [readAssignment, if_neg other, cut]
  dsimp only
  rw [Channel.ofName?_ofList_name]
  dsimp only
  rw [if_neg (by decide), if_pos rfl, named]

end Channel

/-- What is mapped has been read. -/
theorem exists_of_map_eq_ok {ε α β : Type} {read : Except ε α} {root : α → β} {result : β}
    (mapped : read.map root = .ok result) : ∃ value, read = .ok value ∧ root value = result := by
  cases read with
  | error told => cases mapped
  | ok value => exact ⟨value, rfl, Except.ok.inj mapped⟩

/-- An assignment is read from the name of its setting and a text that spells its value. -/
theorem readAssignment_eq_ok_iff {name value : List Char} {assignment : Assignment} :
    readAssignment name value = .ok assignment ↔
      name = assignment.setting.name.toList ∧ assignment.IsSpelledBy value := by
  constructor
  · intro read
    rw [readAssignment] at read
    split at read
    · rename_i requests
      obtain ⟨number, spelled, rfl⟩ := exists_of_map_eq_ok read
      exact ⟨requests, readPositive_eq_ok_iff.mp spelled⟩
    split at read
    · cases read
    rename_i channelName field cut
    obtain ⟨rfl, -⟩ := splitOnce_eq_some.mp cut
    split at read
    · cases read
    rename_i channel named
    obtain rfl : channelName = channel.name.toList := by
      rw [← Channel.ofName?_eq_some_iff.mp named, String.toList_ofList]
    split at read
    · rename_i capacity
      obtain ⟨number, spelled, rfl⟩ := exists_of_map_eq_ok read
      rw [capacity]
      exact ⟨(Setting.name_capacity channel).symm, readPositive_eq_ok_iff.mp spelled⟩
    split at read
    · rename_i isPolicy
      split at read
      · rename_i policy spelled
        cases read
        rw [isPolicy]
        exact ⟨(Setting.name_policy channel).symm, spelled⟩
      · cases read
    · cases read
  · rintro ⟨rfl, spelled⟩
    cases assignment with
    | capacity channel number => exact readAssignment_capacity channel spelled
    | policy channel policy => exact readAssignment_policy channel spelled
    | requests number =>
        rw [readAssignment, if_pos (by rfl), readPositive_eq_ok_iff.mpr spelled]
        rfl

/-! ## Lines that are read -/

/-- Quotes around a value are taken off, and nothing else is. -/
theorem unquoted_cases (written : List Char) :
    written = unquoted written ∨ written = '"' :: (unquoted written ++ ['"']) := by
  unfold unquoted
  split
  · rename_i rest
    split
    · rename_i closes
      refine .inr ?_
      rw [List.dropLast_append_getLast? '"' closes]
    · exact .inl rfl
  · exact .inl rfl

/-- A pair of quotes is taken off. -/
theorem unquoted_quotes (value : List Char) : unquoted ('"' :: (value ++ ['"'])) = value := by
  rw [unquoted, if_pos List.getLast?_concat, List.dropLast_concat]

/-- A value without quotes is left as it is. -/
theorem unquoted_of_plain {value : List Char} (plain : ∀ c ∈ value, c ≠ '"') :
    unquoted value = value := by
  unfold unquoted
  split
  · exact absurd rfl (plain _ List.mem_cons_self)
  · rfl

/-- There is nothing to trim where nothing is blank. -/
theorem isTrimmed_of_plain {text : List Char} (plain : ∀ c ∈ text, isBlank c = false) :
    IsTrimmed text :=
  ⟨fun c first => plain c (List.mem_of_head? first),
    fun c last => plain c (List.mem_of_getLast? last)⟩

/-- The value of an assignment, in quotes or not, is found when the quotes are taken off. -/
theorem written_of_quotes {assignment : Assignment} {written value : List Char}
    (spelled : assignment.IsSpelledBy value)
    (quotes : written = value ∨ written = '"' :: (value ++ ['"'])) :
    written ≠ [] ∧ IsTrimmed written ∧ unquoted written = value := by
  obtain ⟨filled, plain⟩ := spelled.plain
  rcases quotes with rfl | rfl
  · exact ⟨filled, isTrimmed_of_plain fun c member => (plain c member).1,
      unquoted_of_plain fun c member => (plain c member).2⟩
  · have blankless : isBlank '"' = false := by decide
    refine ⟨List.cons_ne_nil _ _, ⟨?_, ?_⟩, unquoted_quotes value⟩
    · rintro c ⟨⟩
      exact blankless
    · intro c last
      rw [← List.cons_append, List.getLast?_concat] at last
      cases last
      exact blankless

/-- Two trimmed texts with one between them that is not a blank make a trimmed text. -/
theorem isTrimmed_join {front middle back : List Char} (trimmedFront : IsTrimmed front)
    (trimmedBack : IsTrimmed back) (someFront : front ≠ []) (someBack : back ≠ []) :
    IsTrimmed (front ++ (middle ++ back)) := by
  constructor
  · rw [List.head?_append_of_ne_nil _ someFront]
    exact trimmedFront.1
  · rw [← List.append_assoc, List.getLast?_append_of_ne_nil _ someBack]
    exact trimmedBack.2

/-- A line with an equality sign that is no comment is read as an assignment. -/
theorem readLine_of_splitOnce {line name value : List Char} (first : (trim line).head? ≠ some ';')
    (cut : splitOnce '=' (trim line) = some (name, value)) :
    readLine line = (readAssignment (trim name) (unquoted (trim value))).map some := by
  unfold readLine
  dsimp only
  split
  · rename_i nothing
    rw [nothing] at cut
    cases cut
  · rename_i rest comment
    rw [comment] at first
    exact absurd rfl first
  · rw [cut]

/-- The two sides of the first equals sign are found in the trimmed line, each with blanks on the
inner side only. -/
theorem exists_splitOnce_trim {name written left right : List Char} (trimmedName : IsTrimmed name)
    (someName : name ≠ []) (noSign : '=' ∉ name) (trimmedWritten : IsTrimmed written)
    (someWritten : written ≠ []) (padsName : Pads name left) (padsWritten : Pads written right) :
    (trim (left ++ '=' :: right)).head? = name.head? ∧
      ∃ front back, splitOnce '=' (trim (left ++ '=' :: right)) = some (front, back) ∧
        trim front = name ∧ trim back = written := by
  obtain ⟨outer, between, rfl, blankOuter, blankBetween⟩ := padsName
  obtain ⟨behind, last, rfl, blankBehind, blankLast⟩ := padsWritten
  have content : trim (outer ++ (name ++ between) ++ '=' :: (behind ++ (written ++ last))) =
      name ++ (between ++ '=' :: behind ++ written) := by
    refine trim_of_pads (isTrimmed_join trimmedName trimmedWritten someName someWritten)
      ⟨outer, last, ?_, blankOuter, blankLast⟩
    simp only [List.append_assoc, List.cons_append]
  have noSignBefore : '=' ∉ name ++ between := by
    intro member
    rcases List.mem_append.mp member with inName | inBlanks
    · exact noSign inName
    · exact absurd (blankBetween _ inBlanks) (by decide)
  rw [content, List.head?_append_of_ne_nil _ someName]
  refine ⟨rfl, name ++ between, behind ++ written, splitOnce_eq_some.mpr ⟨?_, noSignBefore⟩, ?_,
    ?_⟩
  · simp only [List.append_assoc, List.cons_append]
  · exact trim_of_pads trimmedName ⟨[], between, rfl, List.forall_mem_nil _, blankBetween⟩
  · exact trim_of_pads trimmedWritten ⟨behind, [], by rw [List.append_nil], blankBehind,
      List.forall_mem_nil _⟩

/-- The lines that are read as an assignment are the valid assignments. -/
theorem readLine_eq_some_iff {line : List Char} {assignment : Assignment} :
    readLine line = .ok (some assignment) ↔ Assigns line assignment := by
  constructor
  · intro read
    obtain ⟨front, back, shape, blankFront, blankBack⟩ := pads_trim line
    unfold readLine at read
    dsimp only at read
    split at read
    · cases read
    · cases read
    split at read
    · cases read
    rename_i name value cut
    obtain ⟨parts, -⟩ := splitOnce_eq_some.mp cut
    obtain ⟨given, readValue, same⟩ := exists_of_map_eq_ok read
    cases same
    obtain ⟨named, spelled⟩ := readAssignment_eq_ok_iff.mp readValue
    refine ⟨front ++ name, value ++ back, trim value, unquoted (trim value), ?_, ?_, ?_,
      unquoted_cases _, spelled⟩
    · rw [shape, parts]
      simp only [List.append_assoc, List.cons_append]
    · rw [← named]
      exact (pads_trim name).append_left blankFront
    · exact (pads_trim value).append_right blankBack
  · rintro ⟨left, right, written, value, rfl, padsName, padsValue, quotes, spelled⟩
    obtain ⟨someName, plain⟩ := assignment.setting.name_plain
    obtain ⟨someWritten, trimmedWritten, unquotes⟩ := written_of_quotes spelled quotes
    obtain ⟨opening, front, back, cut, nameRead, valueRead⟩ := exists_splitOnce_trim
      (isTrimmed_of_plain fun c member => (plain c member).1) someName
      (fun member => (plain _ member).2.1 rfl) trimmedWritten someWritten padsName padsValue
    have noComment : (trim (left ++ '=' :: right)).head? ≠ some ';' := by
      rw [opening]
      exact fun comment => (plain _ (List.mem_of_head? comment)).2.2 rfl
    rw [readLine_of_splitOnce noComment cut, nameRead, valueRead, unquotes,
      readAssignment_eq_ok_iff.mpr ⟨rfl, spelled⟩]
    rfl

/-- The lines that are passed over are the blank ones and the comments. -/
theorem readLine_eq_none_iff {line : List Char} :
    readLine line = .ok none ↔ IsBlankText line ∨ IsComment line := by
  constructor
  · intro read
    obtain ⟨front, back, shape, blankFront, blankBack⟩ := pads_trim line
    unfold readLine at read
    dsimp only at read
    split at read
    · rename_i nothing
      refine .inl fun c member => ?_
      rw [shape, nothing] at member
      exact (List.mem_append.mp member).elim (blankFront c) (blankBack c)
    · rename_i rest comment
      exact .inr ⟨front, rest ++ back, by rw [shape, comment]; rfl, blankFront⟩
    split at read
    · cases read
    · obtain ⟨given, -, same⟩ := exists_of_map_eq_ok read
      cases same
  · rintro (blank | ⟨blanks, rest, rfl, blank⟩)
    · have nothing : trim line = [] :=
        trim_of_pads ⟨nofun, nofun⟩ ⟨line, [], by simp, blank, List.forall_mem_nil _⟩
      rw [readLine, nothing]
    · have first : (trim (blanks ++ ';' :: rest)).head? = some ';' := by
        rw [head?_trim, List.dropWhile_append_of_pos blank]
        rfl
      obtain ⟨others, content⟩ := List.head?_eq_some_iff.mp first
      rw [readLine, content]
      rfl

/-- The line assigns to some setting. -/
def IsAssignment (row : List Char) : Prop :=
  ∃ assignment, Assigns row assignment

/-- The lines of the shape of an assignment are those that assign something. -/
theorem isAssignment_iff {row : List Char} :
    IsAssignment row ↔ ∃ assignment, readLine row = .ok (some assignment) :=
  exists_congr fun _ => readLine_eq_some_iff.symm

instance (row : List Char) : Decidable (IsAssignment row) :=
  match read : readLine row with
  | .ok (some assignment) => .isTrue (isAssignment_iff.mpr ⟨assignment, read⟩)
  | .ok none => .isFalse fun assigns => by
      obtain ⟨assignment, other⟩ := isAssignment_iff.mp assigns
      cases read.symm.trans other
  | .error fault => .isFalse fun assigns => by
      obtain ⟨assignment, other⟩ := isAssignment_iff.mp assigns
      cases read.symm.trans other

/-- The lines that give an error are the others. -/
theorem isRefused_iff {line : List Char} :
    IsRefused line ↔ ∃ fault, readLine line = .error fault := by
  rw [IsRefused, ← and_assoc, ← not_or, ← readLine_eq_none_iff]
  simp only [← readLine_eq_some_iff]
  cases readLine line with
  | error fault => simp
  | ok said => cases said <;> simp

example : readLine "\tstdin.capacity= \"+07\" \r".toList = .ok (some (.capacity .stdin 7)) := by
  decide

end CommandScript
