import CommandScript.Proofs.Source.Words

/-!
# Written trees

Every part of a program puts a text of its own in front of what follows it. What is written of a
tree tells all of it but one thing: a number that is not finite looks like the symbol of its name.
The legible form of a tree has those symbols in the place of such numbers. It is written alike.
-/

namespace CommandScript.Source

open CommandScript.Text

/-! ## Parts of a text -/

/-- The part puts this text in front of whatever follows. -/
def Writes (part : Part) (text : List Char) : Prop :=
  ∀ following, part following = text ++ following

/-- The character opens an argument or a command. -/
def Opens (c : Char) : Prop :=
  isBlank c = false ∧ c ≠ ';' ∧ c ≠ '}' ∧ c ≠ ']'

instance (c : Char) : Decidable (Opens c) :=
  inferInstanceAs (Decidable (_ ∧ _))

/-- Whatever may stand in a word opens an argument. -/
theorem opens_of_isDelimiter_eq_false {c : Char} (free : isDelimiter c = false) : Opens c := by
  simp only [isDelimiter, List.contains_cons, List.contains_nil, Bool.or_eq_false_iff,
    beq_eq_false_iff_ne] at free
  exact ⟨free.1, free.2.1, free.2.2.2.1, free.2.2.2.2.2.1⟩

/-- A word has a first character, which delimits nothing. -/
theorem isWord_cons {text : List Char} (isWord : IsWord text) :
    ∃ c rest, text = c :: rest ∧ isDelimiter c = false := by
  obtain ⟨c, rest, shape⟩ := List.exists_cons_of_ne_nil isWord.1
  exact ⟨c, rest, shape, isWord.2 c (by rw [shape]; exact List.mem_cons_self ..)⟩

/-- Characters that delimit nothing make a word. -/
theorem isWord_of_all {text : List Char} (inhabited : text ≠ [])
    (free : text.all (isDelimiter · == false) = true) : IsWord text :=
  ⟨inhabited, fun c mem => eq_of_beq (List.all_eq_true.mp free c mem)⟩

/-- The names of the numbers that are not finite are words as well. -/
theorem isWord_plain_text_all (x : Float) : IsWord (Decimal.Layout.plain.text x).toList := by
  cases finite : Decimal.isFinite x with
  | true => exact isWord_plain_text finite
  | false =>
      rw [Decimal.isFinite] at finite
      rw [Decimal.Layout.text]
      cases reads : Decimal.reading x with
      | notANumber => exact isWord_of_all (by decide) (by decide)
      | infinite negative => cases negative <;> exact isWord_of_all (by decide) (by decide)
      | finite negative magnitude => simp [reads] at finite

/-- A quoted text is written between quotes, with its escapes. -/
theorem writes_quotedText (text : List Char) : Writes (quotedText text)
    ('"' :: (text.flatMap escaped ++ ['"'])) := by
  intro following
  simp [quotedText]

/-- Lines of the given depth, one for each part. -/
def lined (depth : Nat) (parts : List Part) : Part :=
  fun following => parts.foldr (fun line behind => tabs depth (line ('\n' :: behind))) following

/-- Lines are written if their parts are. -/
theorem exists_writes_lined {parts : List Part} (each : ∀ part ∈ parts, ∃ text, Writes part text)
    (depth : Nat) : ∃ text, Writes (lined depth parts) text := by
  induction parts with
  | nil => exact ⟨[], fun _ => rfl⟩
  | cons part parts ih =>
      obtain ⟨own, writes⟩ := each part (List.mem_cons_self ..)
      obtain ⟨others, rest⟩ := ih fun other member => each other (List.mem_cons_of_mem _ member)
      refine ⟨List.replicate depth '\t' ++ (own ++ '\n' :: others), fun following => ?_⟩
      change tabs depth (part ('\n' :: lined depth parts following)) = _
      rw [rest, writes, tabs]
      simp

/-- Lines in braces are written if their parts are, and begin with a brace. -/
theorem exists_writes_braced {parts : List Part} (each : ∀ part ∈ parts, ∃ text, Writes part text)
    (depth : Nat) : ∃ text, Writes (braced depth parts) ('{' :: text) := by
  match parts, each with
  | [], _ => exact ⟨['}'], fun _ => rfl⟩
  | [only], each =>
      obtain ⟨own, writes⟩ := each only (List.mem_cons_self ..)
      refine ⟨' ' :: (own ++ [' ', '}']), fun following => ?_⟩
      change '{' :: ' ' :: only (' ' :: '}' :: following) = _
      rw [writes]
      simp
  | first :: second :: rest, each =>
      obtain ⟨lines, writes⟩ := exists_writes_lined each (depth + 1)
      refine ⟨'\n' :: (lines ++ (List.replicate depth '\t' ++ ['}'])), fun following => ?_⟩
      change '{' :: '\n' :: lined (depth + 1) (first :: second :: rest)
        (tabs depth ('}' :: following)) = _
      rw [writes, tabs]
      simp

mutual

/-- An argument puts a text of its own in front, which opens an argument. -/
theorem Argument.exists_writes (depth : Nat) : ∀ arg : Argument,
    ∃ c text, Opens c ∧ Writes (arg.layout depth) (c :: text)
  | .symbol symbol => by
      obtain ⟨c, rest, shape, free⟩ := isWord_cons (isWord_symbol symbol)
      refine ⟨c, rest, opens_of_isDelimiter_eq_false free, fun following => ?_⟩
      rw [Argument.layout, shape]
  | .number value => by
      obtain ⟨c, rest, shape, free⟩ := isWord_cons (isWord_plain_text_all value)
      refine ⟨c, rest, opens_of_isDelimiter_eq_false free, fun following => ?_⟩
      rw [Argument.layout, shape]
  | .text text => by
      refine ⟨'"', text.toList.flatMap escaped ++ ['"'], by decide, fun following => ?_⟩
      rw [Argument.layout]
      exact writes_quotedText text.toList following
  | .variable name => by
      refine ⟨'$', name.text.toList, by decide, fun following => ?_⟩
      rw [Argument.layout]
      rfl
  | .list items => by
      refine ⟨'[', ?_⟩
      rcases Argument.exists_writes_all depth items with rfl | ⟨c, text, -, writes⟩
      · refine ⟨[' ', ']'], by decide, fun following => ?_⟩
        simp only [Argument.layout, Argument.layouts]
        rfl
      · refine ⟨' ' :: c :: (text ++ [' ', ']']), by decide, fun following => ?_⟩
        simp only [Argument.layout]
        rw [writes]
        simp
  | .script commands => by
      obtain ⟨text, writes⟩ := exists_writes_braced
        (Command.exists_writes_all (bodyDepth depth commands) commands) depth
      refine ⟨'{', text, by decide, fun following => ?_⟩
      rw [Argument.layout]
      exact writes following

/-- Arguments are written, each behind a blank. -/
theorem Argument.exists_writes_all (depth : Nat) : ∀ args : List Argument,
    args = [] ∨ ∃ c text, Opens c ∧ Writes (Argument.layouts depth args) (' ' :: c :: text)
  | [] => .inl rfl
  | arg :: rest => by
      obtain ⟨c, own, opens, writes⟩ := Argument.exists_writes depth arg
      refine .inr ⟨c, ?_⟩
      rcases Argument.exists_writes_all depth rest with rfl | ⟨d, others, -, writesRest⟩
      · refine ⟨own, opens, fun following => ?_⟩
        simp only [Argument.layouts]
        rw [writes]
        rfl
      · refine ⟨own ++ ' ' :: d :: others, opens, fun following => ?_⟩
        simp only [Argument.layouts]
        rw [writes, writesRest]
        simp

/-- A command puts a text of its own in front, which opens a command. -/
theorem Command.exists_writes (depth : Nat) : ∀ command : Command,
    ∃ c text, Opens c ∧ Writes (command.layout depth) (c :: text)
  | .mk head args => by
      obtain ⟨c, rest, shape, free⟩ := isWord_cons (isWord_symbol head)
      have opens := opens_of_isDelimiter_eq_false free
      rcases Argument.exists_writes_all depth args with rfl | ⟨d, others, opensArg, writes⟩
      · refine ⟨c, rest, opens, fun following => ?_⟩
        simp only [Command.layout, isBareBlock, Bool.false_eq_true, ↓reduceIte, Argument.layouts]
        rw [shape]
      · by_cases bare : isBareBlock head args = true
        · refine ⟨d, others, opensArg, fun following => ?_⟩
          simp only [Command.layout, if_pos bare]
          rw [writes]
          rfl
        · refine ⟨c, rest ++ ' ' :: d :: others, opens, fun following => ?_⟩
          simp only [Command.layout, if_neg bare]
          rw [writes, shape]
          simp

theorem Command.exists_writes_all (depth : Nat) : ∀ commands : List Command,
    ∀ part ∈ Command.layouts depth commands, ∃ text, Writes part text
  | [] => by simp [Command.layouts]
  | command :: rest => by
      obtain ⟨c, own, -, writes⟩ := Command.exists_writes depth command
      rw [Command.layouts]
      intro part member
      rcases List.mem_cons.mp member with rfl | inRest
      · exact ⟨c :: own, writes⟩
      · exact Command.exists_writes_all depth rest part inRest

end

/-! ## Legible trees -/

/-- A number as its text tells it: itself if it is finite, otherwise the symbol spelled as it. -/
def legibleNumber (x : Float) : Argument :=
  match Decimal.reading x with
  | .notANumber => .symbol ⟨"NaN", by decide⟩
  | .infinite true => .symbol ⟨"-inf", by decide⟩
  | .infinite false => .symbol ⟨"inf", by decide⟩
  | .finite .. => .number x

mutual

/-- The argument with symbols in the place of numbers that are not finite. -/
def Argument.legible : Argument → Argument
  | .symbol symbol => .symbol symbol
  | .number value => legibleNumber value
  | .text text => .text text
  | .variable name => .variable name
  | .list items => .list (Argument.legibles items)
  | .script commands => .script (Command.legibles commands)

/-- Arguments in their legible forms. -/
def Argument.legibles : List Argument → List Argument
  | [] => []
  | arg :: rest => arg.legible :: Argument.legibles rest

/-- The command with its arguments in their legible forms. -/
def Command.legible : Command → Command
  | .mk head args => .mk head (Argument.legibles args)

/-- Commands in their legible forms. -/
def Command.legibles : List Command → List Command
  | [] => []
  | command :: rest => command.legible :: Command.legibles rest

end

/-- The script in its legible form. -/
def Script.legible (script : Script) : Script :=
  Command.legibles script

mutual

/-- The numbers in an argument. -/
def Argument.numbers : Argument → List Float
  | .number value => [value]
  | .list items => Argument.numbersAll items
  | .script commands => Command.numbersAll commands
  | _ => []

/-- The numbers in arguments. -/
def Argument.numbersAll : List Argument → List Float
  | [] => []
  | arg :: rest => arg.numbers ++ Argument.numbersAll rest

/-- The numbers in a command. -/
def Command.numbers : Command → List Float
  | .mk _ args => Argument.numbersAll args

/-- The numbers in commands. -/
def Command.numbersAll : List Command → List Float
  | [] => []
  | command :: rest => command.numbers ++ Command.numbersAll rest

end

/-- The numbers in a script. -/
def Script.numbers (script : Script) : List Float :=
  Command.numbersAll script

/-- A finite number is legible as it is. -/
theorem legibleNumber_of_isFinite {x : Float} (finite : Decimal.isFinite x = true) :
    legibleNumber x = .number x := by
  rw [Decimal.isFinite] at finite
  rw [legibleNumber]
  cases reads : Decimal.reading x with
  | notANumber => simp [reads] at finite
  | infinite negative => simp [reads] at finite
  | finite negative magnitude => rfl

/-- A number that is not finite is told by the symbol that it is spelled as. -/
theorem legibleNumber_of_not_isFinite {x : Float} (infinite : Decimal.isFinite x = false) :
    ∃ symbol, legibleNumber x = .symbol symbol ∧ symbol.text = Decimal.Layout.plain.text x := by
  rw [Decimal.isFinite] at infinite
  rw [legibleNumber, Decimal.Layout.text]
  cases reads : Decimal.reading x with
  | notANumber => exact ⟨_, rfl, rfl⟩
  | infinite negative => cases negative <;> exact ⟨_, rfl, rfl⟩
  | finite negative magnitude => simp [reads] at infinite

/-- A number is laid out as what can be read of it. -/
theorem layout_legibleNumber (depth : Nat) (x : Float) :
    (legibleNumber x).layout depth = (Argument.number x).layout depth := by
  cases finite : Decimal.isFinite x with
  | true => rw [legibleNumber_of_isFinite finite]
  | false =>
      obtain ⟨symbol, told, spelled⟩ := legibleNumber_of_not_isFinite finite
      rw [told]
      simp only [Argument.layout, spelled]

/-- There are as many commands as before. -/
theorem length_legibles (commands : List Command) :
    (Command.legibles commands).length = commands.length := by
  induction commands with
  | nil => simp only [Command.legibles, List.length_nil]
  | cons command rest ih => simp only [Command.legibles, List.length_cons, ih]

/-- A bare block stays one. -/
theorem isBareBlock_legibles (head : Symbol) (args : List Argument) :
    isBareBlock head (Argument.legibles args) = isBareBlock head args := by
  match args with
  | [] => simp only [Argument.legibles]
  | first :: second :: rest =>
      simp only [Argument.legibles, isBareBlock]
      cases first.legible <;> rfl
  | [only] =>
      cases only with
      | number value =>
          simp only [Argument.legibles, Argument.legible, isBareBlock]
          cases finite : Decimal.isFinite value with
          | true => rw [legibleNumber_of_isFinite finite]
          | false =>
              obtain ⟨symbol, told, -⟩ := legibleNumber_of_not_isFinite finite
              rw [told]
      | _ => simp only [Argument.legibles, Argument.legible, isBareBlock]

mutual

/-- The legible form is written alike. -/
theorem Argument.layout_legible (depth : Nat) : ∀ arg : Argument,
    arg.legible.layout depth = arg.layout depth
  | .symbol _ => by rw [Argument.legible]
  | .number value => by rw [Argument.legible, layout_legibleNumber]
  | .text _ => by rw [Argument.legible]
  | .variable _ => by rw [Argument.legible]
  | .list items => by
      simp only [Argument.legible, Argument.layout, Argument.layouts_legibles depth items]
  | .script commands => by
      simp only [Argument.legible, Argument.layout, bodyDepth, length_legibles,
        Command.layouts_legibles _ commands]

theorem Argument.layouts_legibles (depth : Nat) : ∀ args : List Argument,
    Argument.layouts depth (Argument.legibles args) = Argument.layouts depth args
  | [] => by rw [Argument.legibles]
  | arg :: rest => by
      simp only [Argument.legibles, Argument.layouts, Argument.layout_legible depth arg,
        Argument.layouts_legibles depth rest]

/-- A command is laid out as what can be read of it. -/
theorem Command.layout_legible (depth : Nat) : ∀ command : Command,
    command.legible.layout depth = command.layout depth
  | .mk head args => by
      simp only [Command.legible, Command.layout, isBareBlock_legibles,
        Argument.layouts_legibles depth args]

theorem Command.layouts_legibles (depth : Nat) : ∀ commands : List Command,
    Command.layouts depth (Command.legibles commands) = Command.layouts depth commands
  | [] => by rw [Command.legibles]
  | command :: rest => by
      simp only [Command.legibles, Command.layouts, Command.layout_legible depth command,
        Command.layouts_legibles depth rest]

end

/-- A script is printed as what can be read of it. -/
theorem Script.render_legible (script : Script) : script.legible.render = script.render := by
  rw [Script.render, Script.render, Script.layout, Script.layout, Script.legible, bodyDepth,
    bodyDepth, length_legibles, Command.layouts_legibles]

mutual

/-- A tree whose numbers are finite is legible. -/
theorem Argument.legible_of_finite : ∀ arg : Argument,
    (∀ x ∈ arg.numbers, Decimal.isFinite x = true) → arg.legible = arg
  | .symbol _ => fun _ => by rw [Argument.legible]
  | .number value => fun finite => by
      rw [Argument.legible]
      exact legibleNumber_of_isFinite (finite value (by simp [Argument.numbers]))
  | .text _ => fun _ => by rw [Argument.legible]
  | .variable _ => fun _ => by rw [Argument.legible]
  | .list items => fun finite => by
      rw [Argument.numbers] at finite
      rw [Argument.legible, Argument.legibles_of_finite items finite]
  | .script commands => fun finite => by
      rw [Argument.numbers] at finite
      rw [Argument.legible, Command.legibles_of_finite commands finite]

theorem Argument.legibles_of_finite : ∀ args : List Argument,
    (∀ x ∈ Argument.numbersAll args, Decimal.isFinite x = true) → Argument.legibles args = args
  | [] => fun _ => by rw [Argument.legibles]
  | arg :: rest => fun finite => by
      rw [Argument.numbersAll, List.forall_mem_append] at finite
      rw [Argument.legibles, Argument.legible_of_finite arg finite.1,
        Argument.legibles_of_finite rest finite.2]

/-- A command with finite numbers is legible as it is. -/
theorem Command.legible_of_finite : ∀ command : Command,
    (∀ x ∈ command.numbers, Decimal.isFinite x = true) → command.legible = command
  | .mk head args => fun finite => by
      rw [Command.numbers] at finite
      rw [Command.legible, Argument.legibles_of_finite args finite]

theorem Command.legibles_of_finite : ∀ commands : List Command,
    (∀ x ∈ Command.numbersAll commands, Decimal.isFinite x = true) →
      Command.legibles commands = commands
  | [] => fun _ => by rw [Command.legibles]
  | command :: rest => fun finite => by
      rw [Command.numbersAll, List.forall_mem_append] at finite
      rw [Command.legibles, Command.legible_of_finite command finite.1,
        Command.legibles_of_finite rest finite.2]

end

end CommandScript.Source
