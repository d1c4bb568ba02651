import CommandScript.Proofs.Source.Steps

/-!
# Written trees are read back

The reader takes the text of a tree apart as it was put together: each part is read up to where it
ends, and what follows is left. A part of a program has to be followed by a blank, and the text of a
command by the end of its line or by the brace that closes its block. The steps that the reader is
given suffice, as four steps go with every character.
-/

namespace CommandScript.Source

open CommandScript.Text

/-- The finite ones among these numbers are read back as they were written. -/
def Faithful (numbers : List Float) : Prop :=
  ∀ x ∈ numbers, Decimal.isFinite x = true →
    Decimal.scientific? (Decimal.Layout.plain.text x).toList = some x

/-- The text of the argument is read as its legible form, whatever it stands before. -/
def Argument.ReadsBack (arg : Argument) : Prop :=
  ∀ (depth steps : Nat) (following : List Char) (cursor : Cursor),
    cursor.rest = arg.layout depth following → Parted following →
    4 * cursor.rest.length ≤ steps →
    ∃ behind, argument steps cursor = .ok (arg.legible, behind) ∧ behind.rest = following

/-- What may follow a command in a block, and what the reader leaves of it. -/
inductive CommandEnd : List Char → List Char → Prop where
  | line (rest : List Char) : CommandEnd ('\n' :: rest) ('\n' :: rest)
  | brace (rest : List Char) : CommandEnd (' ' :: '}' :: rest) ('}' :: rest)

/-- The text of the command is read as its legible form, in a block. -/
def Command.ReadsBack (entry : Command) : Prop :=
  ∀ (depth steps : Nat) (following left : List Char) (cursor : Cursor),
    cursor.rest = entry.layout depth following → CommandEnd following left →
    4 * cursor.rest.length + 1 ≤ steps →
    ∃ behind, command steps true cursor = .ok (entry.legible, behind) ∧ behind.rest = left

/-! ## Where a part begins -/

/-- Where a command ends, the last word is parted from what follows. -/
theorem CommandEnd.parted {following left : List Char} (ends : CommandEnd following left) :
    Parted following := by
  cases ends with
  | line rest =>
      rintro c ⟨⟩
      decide
  | brace rest =>
      rintro c ⟨⟩
      decide

/-- Behind the blanks of its line the reader finds where the command ends. -/
theorem CommandEnd.skip {following left : List Char} (ends : CommandEnd following left)
    {cursor : Cursor} (rest : cursor.rest = following) :
    (cursor.skip isInlineBlank).rest = left ∧ EndsCommand left := by
  rw [Cursor.skip, rest]
  cases ends with
  | line others => exact ⟨rfl, endsCommand_cons (.inr (.inl rfl)) others⟩
  | brace others => exact ⟨rfl, endsCommand_cons (.inr (.inr rfl)) others⟩

/-- Behind an argument come a blank and the next one, or what follows them all. -/
theorem parted_layouts (depth : Nat) (args : List Argument) {following : List Char}
    (parted : Parted following) : Parted (Argument.layouts depth args following) := by
  cases args with
  | nil =>
      rw [Argument.layouts]
      exact parted
  | cons arg rest =>
      rw [Argument.layouts]
      rintro c ⟨⟩
      decide

/-! ## Arguments -/

/-- A symbol reads back. -/
theorem Argument.readsBack_symbol (symbol : Symbol) : (Argument.symbol symbol).ReadsBack := by
  intro depth steps following cursor rest parted bound
  simp only [Argument.layout] at rest
  obtain ⟨c, others, front, -⟩ := (isWord_symbol symbol).begins following
  obtain ⟨fewer, rfl, -⟩ := exists_fewer (rest.trans front) bound
  rw [Argument.legible]
  exact argument_of_symbol fewer rest parted.endsWord

/-- A number that is not finite is written as a symbol, and read back as that. -/
theorem Argument.readsBack_number {x : Float} (faithful : Faithful [x]) :
    (Argument.number x).ReadsBack := by
  cases finite : Decimal.isFinite x with
  | true =>
      intro depth steps following cursor rest parted bound
      simp only [Argument.layout] at rest
      obtain ⟨c, others, front, -⟩ := (isWord_plain_text finite).begins following
      obtain ⟨fewer, rfl, -⟩ := exists_fewer (rest.trans front) bound
      rw [Argument.legible, legibleNumber_of_isFinite finite]
      exact argument_of_numeral fewer (Decimal.isNumeral_iff.mp (Decimal.isNumeral_plain_text finite))
        (faithful x (List.mem_singleton_self x) finite) rest parted.endsWord
  | false =>
      obtain ⟨symbol, told, spelled⟩ := legibleNumber_of_not_isFinite finite
      intro depth steps following cursor rest
      rw [← layout_legibleNumber, told] at rest
      rw [Argument.legible, told]
      exact Argument.readsBack_symbol symbol depth steps following cursor rest

/-- A text reads back, with its quotes and escapes. -/
theorem Argument.readsBack_text (text : String) : (Argument.text text).ReadsBack := by
  intro depth steps following cursor rest parted bound
  rw [Argument.layout] at rest
  have front : cursor.rest = '"' :: (text.toList.flatMap escaped ++ '"' :: following) := rest
  obtain ⟨fewer, rfl, -⟩ := exists_fewer front bound
  obtain ⟨behind, read, left⟩ := quotation_of_rest rest parted
  refine ⟨behind, ?_, left⟩
  rw [Argument.legible]
  exact argument_of_quote front read

/-- A variable reads back. -/
theorem Argument.readsBack_variable (name : Symbol) : (Argument.variable name).ReadsBack := by
  intro depth steps following cursor rest parted bound
  simp only [Argument.layout] at rest
  obtain ⟨fewer, rfl, -⟩ := exists_fewer rest bound
  rw [argument_of_sign fewer rest, Argument.legible]
  exact variableWord_of_rest rest parted.endsWord

/-- Behind the blanks in front of it an argument begins, and it is not empty. -/
theorem skip_layouts (condition : Char → Bool) (blank : condition ' ' = true)
    (stops : ∀ c, Opens c → condition c = false) (depth : Nat) (arg : Argument)
    (others : List Argument) {following : List Char} {cursor : Cursor}
    (rest : cursor.rest = Argument.layouts depth (arg :: others) following) :
    ∃ c text, Opens c ∧ (cursor.skip condition).rest = c :: text ∧
      (cursor.skip condition).rest =
        arg.layout depth (Argument.layouts depth others following) ∧
      (Argument.layouts depth others following).length ≤ text.length ∧
      text.length + 2 = cursor.rest.length := by
  obtain ⟨c, own, opens, writes⟩ := arg.exists_writes depth
  simp only [Argument.layouts] at rest
  rw [writes, List.cons_append] at rest
  have start := rest_skip_of_cons condition rest blank (stops c opens)
  refine ⟨c, own ++ Argument.layouts depth others following, opens, start, ?_, ?_, ?_⟩
  · rw [start, writes, List.cons_append]
  · rw [List.length_append]
    exact Nat.le_add_left ..
  · rw [rest]
    rfl

/-- The items of a list are read one after another, and the bracket behind them. -/
theorem items_readBack {list : List Argument} (each : ∀ arg ∈ list, arg.ReadsBack)
    (depth steps : Nat) (following : List Char) (cursor : Cursor)
    (rest : cursor.rest = Argument.layouts depth list (' ' :: ']' :: following))
    (bound : 4 * cursor.rest.length + 1 ≤ steps) :
    ∃ behind, items steps cursor = .ok (Argument.legibles list, behind) ∧
      behind.rest = following := by
  obtain ⟨fewer, rfl⟩ : ∃ fewer, steps = fewer + 1 := ⟨steps - 1, by omega⟩
  induction list generalizing fewer cursor with
  | nil =>
      simp only [Argument.layouts] at rest
      have start := rest_skip_of_cons isBlank rest (by decide) (by decide)
      refine ⟨(cursor.skip isBlank).advance 1, ?_, (expect_of_cons start).2⟩
      rw [Argument.legibles]
      exact items_of_bracket start
  | cons arg others ih =>
      obtain ⟨c, text, opens, start, written, shorter, length⟩ := skip_layouts isBlank (by decide)
        (fun c opens => opens.1) depth arg others rest
      have parted : Parted (' ' :: ']' :: following) := by
        rintro c ⟨⟩
        decide
      obtain ⟨middle, readFirst, leftFirst⟩ := each arg (List.mem_cons_self ..) depth fewer _ _
        written (parted_layouts depth others parted) (by rw [start, List.length_cons]; omega)
      obtain ⟨fewest, rfl⟩ : ∃ fewest, fewer = fewest + 1 := ⟨fewer - 1, by omega⟩
      obtain ⟨behind, readRest, leftRest⟩ := ih
        (fun other member => each other (List.mem_cons_of_mem _ member)) middle leftFirst fewest
        (by rw [leftFirst]; omega)
      refine ⟨behind, ?_, leftRest⟩
      rw [Argument.legibles]
      exact items_of_argument opens start readFirst readRest

/-- A list reads back if its items do. -/
theorem Argument.readsBack_list {list : List Argument} (each : ∀ arg ∈ list, arg.ReadsBack) :
    (Argument.list list).ReadsBack := by
  intro depth steps following cursor rest parted bound
  simp only [Argument.layout] at rest
  obtain ⟨fewer, rfl, enough⟩ := exists_fewer rest bound
  obtain ⟨opened, inside⟩ := expect_of_cons rest
  obtain ⟨behind, read, left⟩ := items_readBack each depth fewer following (cursor.advance 1) inside
    (by rw [inside]; omega)
  refine ⟨behind, ?_, left⟩
  rw [Argument.legible]
  exact argument_of_bracket rest read

/-! ## Commands -/

/-- The arguments of a command are read up to its end. -/
theorem arguments_readBack {args : List Argument} (each : ∀ arg ∈ args, arg.ReadsBack)
    (depth steps : Nat) {following left : List Char} (ends : CommandEnd following left)
    (cursor : Cursor) (rest : cursor.rest = Argument.layouts depth args following)
    (bound : 4 * cursor.rest.length + 1 ≤ steps) :
    ∃ behind, arguments steps true cursor = .ok (Argument.legibles args, behind) ∧
      behind.rest = left := by
  obtain ⟨fewer, rfl⟩ : ∃ fewer, steps = fewer + 1 := ⟨steps - 1, by omega⟩
  induction args generalizing fewer cursor with
  | nil =>
      rw [Argument.layouts] at rest
      obtain ⟨start, endsHere⟩ := ends.skip rest
      refine ⟨cursor.skip isInlineBlank, ?_, start⟩
      rw [Argument.legibles]
      exact arguments_of_end start endsHere fun _ => rfl
  | cons arg others ih =>
      obtain ⟨c, text, opens, start, written, shorter, length⟩ := skip_layouts isInlineBlank
        (by decide) (fun c opens => isInlineBlank_of_opens opens) depth arg others rest
      obtain ⟨middle, readFirst, leftFirst⟩ := each arg (List.mem_cons_self ..) depth fewer _ _
        written (parted_layouts depth others ends.parted) (by rw [start, List.length_cons]; omega)
      obtain ⟨fewest, rfl⟩ : ∃ fewest, fewer = fewest + 1 := ⟨fewer - 1, by omega⟩
      obtain ⟨behind, readRest, leftRest⟩ := ih
        (fun other member => each other (List.mem_cons_of_mem _ member)) middle leftFirst fewest
        (by rw [leftFirst]; omega)
      refine ⟨behind, ?_, leftRest⟩
      rw [Argument.legibles]
      exact arguments_of_argument opens start readFirst readRest

/-- The text of the script is read as its legible form. -/
def Script.ReadsBack (script : Script) : Prop :=
  ∀ (depth steps : Nat) (following : List Char) (cursor : Cursor),
    cursor.rest = script.layout depth following → 4 * cursor.rest.length ≤ steps + 1 →
    ∃ behind, block steps cursor = .ok (script.legible, behind) ∧ behind.rest = following

/-- A script in an argument begins with a brace. -/
theorem script_layout_front (depth : Nat) (script : Script) (following : List Char) :
    ∃ rest, script.layout depth following = '{' :: rest := by
  obtain ⟨text, writes⟩ := exists_writes_braced
    (Command.exists_writes_all (bodyDepth depth script) script) depth
  exact ⟨text ++ following, writes following⟩

/-- A script that is read as an argument is read as a block. -/
theorem Script.readsBack_of_argument {script : Script} (reads : (Argument.script script).ReadsBack)
    (depth steps : Nat) (following : List Char) (cursor : Cursor)
    (rest : cursor.rest = script.layout depth following) (parted : Parted following)
    (bound : 4 * cursor.rest.length ≤ steps + 1) :
    ∃ behind, block steps cursor = .ok (script.legible, behind) ∧ behind.rest = following := by
  obtain ⟨others, front⟩ := script_layout_front depth script following
  obtain ⟨behind, read, left⟩ := reads depth (steps + 1) following cursor
    (by rw [rest, Argument.layout]; rfl) parted bound
  rw [argument_of_brace steps (rest.trans front)] at read
  cases found : block steps cursor with
  | error error => rw [found] at read; cases read
  | ok result =>
      rw [found] at read
      simp only [Except.map, Argument.legible, Except.ok.injEq, Prod.mk.injEq,
        Argument.script.injEq] at read
      exact ⟨result.2, by rw [Script.legible, ← read.1], by rw [read.2, left]⟩

/-- A bare block is a single script under the head of blocks. -/
theorem eq_of_isBareBlock {head : Symbol} {args : List Argument}
    (bare : isBareBlock head args = true) :
    head = Keyword.block ∧ ∃ script, args = [.script script] := by
  rw [isBareBlock.eq_def] at bare
  split at bare
  · exact ⟨of_decide_eq_true bare, _, rfl⟩
  · exact absurd bare Bool.false_ne_true

/-- A block in the place of a command is written and read without a head. -/
theorem command_of_block (steps depth : Nat) {script : Script}
    (reads : (Argument.script script).ReadsBack) {following left : List Char}
    (ends : CommandEnd following left) (cursor : Cursor)
    (rest : cursor.rest = script.layout depth following)
    (bound : 4 * cursor.rest.length ≤ steps + 1) :
    ∃ behind,
      command (steps + 1) true cursor = .ok (.mk Keyword.block [.script script.legible], behind) ∧
      behind.rest = left := by
  obtain ⟨others, front⟩ := script_layout_front depth script following
  obtain ⟨middle, read, leftMiddle⟩ := Script.readsBack_of_argument reads depth steps following
    cursor rest ends.parted bound
  exact ⟨middle.skip isInlineBlank, command_of_brace (rest.trans front) read,
    (ends.skip leftMiddle).1⟩

/-- A command with a head is written and read with it. -/
theorem command_of_head (steps depth : Nat) (head : Symbol) {args : List Argument}
    (each : ∀ arg ∈ args, arg.ReadsBack) {following left : List Char}
    (ends : CommandEnd following left) (cursor : Cursor)
    (rest : cursor.rest = head.text.toList ++ Argument.layouts depth args following)
    (bound : 4 * cursor.rest.length ≤ steps) :
    ∃ behind, command (steps + 1) true cursor = .ok (.mk head (Argument.legibles args), behind) ∧
      behind.rest = left := by
  obtain ⟨c, others, text, free⟩ := isWord_cons (isWord_symbol head)
  have front : cursor.rest = c :: (others ++ Argument.layouts depth args following) := by
    rw [rest, text, List.cons_append]
  obtain ⟨middle, readHead, leftHead⟩ :=
    headWord_of_rest rest (parted_layouts depth args ends.parted).endsWord
  have shorter : 4 * middle.rest.length + 1 ≤ steps := by
    rw [front, List.length_cons, List.length_append] at bound
    rw [leftHead]
    omega
  obtain ⟨behind, readArgs, left'⟩ :=
    arguments_readBack each depth steps ends middle leftHead shorter
  exact ⟨behind, command_of_word front free readHead readArgs, left'⟩

/-- A command reads back if its arguments do. -/
theorem Command.readsBack_mk (head : Symbol) {args : List Argument}
    (each : ∀ arg ∈ args, arg.ReadsBack) : (Command.mk head args).ReadsBack := by
  intro depth steps following left cursor rest ends bound
  obtain ⟨fewer, rfl⟩ : ∃ fewer, steps = fewer + 1 := ⟨steps - 1, by omega⟩
  simp only [Command.layout] at rest
  rw [Command.legible]
  by_cases bare : isBareBlock head args = true
  · rw [if_pos bare] at rest
    obtain ⟨rfl, script, rfl⟩ := eq_of_isBareBlock bare
    have written : cursor.rest = Script.layout depth script following := by
      rw [rest]
      simp only [Argument.layouts, Argument.layout]
      rfl
    simp only [Argument.legibles, Argument.legible]
    exact command_of_block fewer depth (each _ (List.mem_cons_self ..)) ends cursor written
      (by omega)
  · rw [if_neg bare] at rest
    exact command_of_head fewer depth head each ends cursor rest (by omega)

/-! ## Blocks -/

/-- Tabs are passed over between commands. -/
theorem dropWhile_tabs (depth : Nat) (following : List Char) :
    (tabs depth following).dropWhile isSeparator = following.dropWhile isSeparator := by
  apply List.dropWhile_append_of_pos
  intro c member
  rw [List.eq_of_mem_replicate member]
  decide

/-- What opens an argument is not passed over. -/
theorem dropWhile_of_opens {c : Char} (opens : Opens c) (rest : List Char) :
    (c :: rest).dropWhile isSeparator = c :: rest :=
  List.dropWhile_cons_of_neg (Bool.eq_false_iff.mp (isSeparator_of_opens opens))

/-- Commands on lines of their own are read one after another, up to the brace behind them. -/
theorem lines_readBack {list : Script} (each : ∀ entry ∈ list, entry.ReadsBack)
    (depth inner outer : Nat) (following : List Char) (steps : Nat) (cursor : Cursor)
    (start : (cursor.skip isSeparator).rest = (lined depth (Command.layouts inner list)
      (tabs outer ('}' :: following))).dropWhile isSeparator)
    (bound : 4 * cursor.rest.length + 2 ≤ steps) :
    ∃ behind, commands steps true cursor = .ok (Command.legibles list, behind) ∧
      behind.rest = '}' :: following := by
  obtain ⟨fewer, rfl⟩ : ∃ fewer, steps = fewer + 1 := ⟨steps - 1, by omega⟩
  induction list generalizing fewer cursor with
  | nil =>
      have brace : (cursor.skip isSeparator).rest = '}' :: following := by
        rw [start, Command.layouts]
        exact dropWhile_tabs outer ('}' :: following)
      exact ⟨_, by rw [commands_of_end (.block following) brace, Command.legibles], brace⟩
  | cons entry others ih =>
      obtain ⟨c, own, opens, writes⟩ := entry.exists_writes inner
      have written : (cursor.skip isSeparator).rest = entry.layout inner ('\n' ::
          lined depth (Command.layouts inner others) (tabs outer ('}' :: following))) := by
        rw [start, Command.layouts]
        change (tabs depth (entry.layout inner ('\n' :: lined depth (Command.layouts inner others)
          (tabs outer ('}' :: following))))).dropWhile isSeparator = _
        rw [dropWhile_tabs, writes, List.cons_append, dropWhile_of_opens opens]
      have front := written.trans (writes _)
      have shorter : (cursor.skip isSeparator).rest.length ≤ cursor.rest.length :=
        List.length_dropWhile_le _ _
      obtain ⟨middle, readFirst, leftFirst⟩ := each entry (List.mem_cons_self ..) inner fewer _ _
        _ written (.line _) (by omega)
      obtain ⟨fewest, rfl⟩ : ∃ fewest, fewer = fewest + 1 := ⟨fewer - 1, by omega⟩
      have rest : (middle.skip isSeparator).rest = (lined depth (Command.layouts inner others)
          (tabs outer ('}' :: following))).dropWhile isSeparator := by
        have separates : isSeparator '\n' = true := by decide
        rw [Cursor.skip, leftFirst]
        exact List.dropWhile_cons_of_pos separates
      have enough : 4 * middle.rest.length + 2 ≤ fewest + 1 := by
        rw [front, List.length_append, List.length_cons] at shorter
        rw [leftFirst]
        omega
      obtain ⟨behind, readRest, leftRest⟩ := ih
        (fun other member => each other (List.mem_cons_of_mem _ member)) middle rest fewest enough
      refine ⟨behind, ?_, leftRest⟩
      rw [Command.legibles]
      refine commands_of_command opens front readFirst (afterCommand_of_end ?_ fun _ => rfl) readRest
      rw [leftFirst]
      exact endsCommand_cons (.inr (.inl rfl)) _

/-- The commands of a script are read from behind its opening brace to before the closing one. -/
theorem commands_readBack {script : Script} (each : ∀ entry ∈ script, entry.ReadsBack)
    (depth steps : Nat) (following : List Char) (cursor : Cursor)
    (rest : '{' :: cursor.rest = script.layout depth following)
    (bound : 4 * cursor.rest.length + 2 ≤ steps) :
    ∃ behind, commands steps true cursor = .ok (script.legible, behind) ∧
      behind.rest = '}' :: following := by
  rw [Script.layout] at rest
  rw [Script.legible]
  rcases script with _ | ⟨first, _ | ⟨second, others⟩⟩
  case nil =>
      obtain ⟨fewer, rfl⟩ : ∃ fewer, steps = fewer + 1 := ⟨steps - 1, by omega⟩
      have inside : cursor.rest = '}' :: following := by
        simp only [Command.layouts, braced] at rest
        exact (List.cons.inj rest).2
      have start : (cursor.skip isSeparator).rest = '}' :: following := by
        rw [Cursor.skip, inside]
        rfl
      exact ⟨_, by rw [commands_of_end (.block following) start, Command.legibles], start⟩
  case cons.nil =>
      obtain ⟨fewer, rfl⟩ : ∃ fewer, steps = fewer + 2 := ⟨steps - 2, by omega⟩
      obtain ⟨c, own, opens, writes⟩ := first.exists_writes (bodyDepth depth [first])
      have inside : cursor.rest = ' ' :: first.layout (bodyDepth depth [first])
          (' ' :: '}' :: following) := by
        simp only [Command.layouts, braced] at rest
        exact (List.cons.inj rest).2
      have start : (cursor.skip isSeparator).rest =
          first.layout (bodyDepth depth [first]) (' ' :: '}' :: following) := by
        have skipped := inside
        rw [writes] at skipped ⊢
        exact rest_skip_of_cons isSeparator skipped (by decide) (isSeparator_of_opens opens)
      obtain ⟨middle, read, left⟩ := each first (List.mem_cons_self ..) _ (fewer + 1) _ _ _ start
        (.brace following) (by rw [start]; rw [inside, List.length_cons] at bound; omega)
      have closed : (middle.skip isSeparator).rest = '}' :: following := by
        rw [Cursor.skip, left]
        rfl
      refine ⟨middle.skip isSeparator, ?_, closed⟩
      rw [Command.legibles, Command.legibles]
      refine commands_of_command opens (start.trans (writes _)) read
        (afterCommand_of_end ?_ fun _ => rfl) (commands_of_end (.block following) closed)
      rw [left]
      exact endsCommand_cons (.inr (.inr rfl)) following
  case cons.cons =>
      have inside : cursor.rest = '\n' :: lined (depth + 1)
          (Command.layouts (bodyDepth depth (first :: second :: others))
            (first :: second :: others))
          (tabs depth ('}' :: following)) := by
        simp only [Command.layouts, braced] at rest ⊢
        exact (List.cons.inj rest).2
      refine lines_readBack each (depth + 1) (bodyDepth depth (first :: second :: others)) depth
        following steps cursor ?_ bound
      have separates : isSeparator '\n' = true := by decide
      rw [Cursor.skip, inside]
      exact List.dropWhile_cons_of_pos separates

/-- A script whose commands are read back is read back as a block. -/
theorem Script.readsBack_of_commands {script : Script} (each : ∀ entry ∈ script, entry.ReadsBack) :
    Script.ReadsBack script := by
  intro depth steps following cursor rest bound
  obtain ⟨others, front⟩ := script_layout_front depth script following
  have opening := rest.trans front
  obtain ⟨opened, inside⟩ := expect_of_cons opening
  have enough : 4 * (cursor.advance 1).rest.length + 3 ≤ steps := by
    rw [opening, List.length_cons] at bound
    rw [inside]
    omega
  obtain ⟨fewer, rfl⟩ : ∃ fewer, steps = fewer + 1 := ⟨steps - 1, by omega⟩
  obtain ⟨middle, read, left⟩ := commands_readBack each depth fewer following (cursor.advance 1)
    (by rw [inside, front]) (by omega)
  obtain ⟨closed, behind⟩ := expect_of_cons left
  refine ⟨middle.advance 1, ?_, behind⟩
  rw [block, opened]
  simp only [read, closed, bind, Except.bind]
  rfl

/-- A script in an argument reads back if the script does. -/
theorem Argument.readsBack_script {script : Script} (reads : Script.ReadsBack script) :
    (Argument.script script).ReadsBack := by
  intro depth steps following cursor rest parted bound
  have written : cursor.rest = Script.layout depth script following := by
    rw [rest, Argument.layout]
    rfl
  obtain ⟨others, front⟩ := script_layout_front depth script following
  obtain ⟨fewer, rfl, -⟩ := exists_fewer (written.trans front) bound
  obtain ⟨behind, read, left⟩ := reads depth fewer following cursor written bound
  refine ⟨behind, ?_, left⟩
  rw [argument_of_brace fewer (written.trans front), read, Argument.legible]
  rfl

/-! ## Whole trees -/

mutual

/-- An argument is read back if its finite numbers are. -/
theorem Argument.readsBack : ∀ arg : Argument, Faithful arg.numbers → arg.ReadsBack
  | .symbol symbol => fun _ => Argument.readsBack_symbol symbol
  | .number value => fun faithful => by
      rw [Argument.numbers] at faithful
      exact Argument.readsBack_number faithful
  | .text text => fun _ => Argument.readsBack_text text
  | .variable name => fun _ => Argument.readsBack_variable name
  | .list items => fun faithful => by
      rw [Argument.numbers] at faithful
      exact Argument.readsBack_list (Argument.readsBack_all items faithful)
  | .script commands => fun faithful => by
      rw [Argument.numbers] at faithful
      exact Argument.readsBack_script
        (Script.readsBack_of_commands (Command.readsBack_all commands faithful))

theorem Argument.readsBack_all : ∀ args : List Argument, Faithful (Argument.numbersAll args) →
    ∀ arg ∈ args, arg.ReadsBack
  | [] => fun _ arg member => absurd member List.not_mem_nil
  | first :: rest => fun faithful arg member => by
      rw [Argument.numbersAll] at faithful
      have own := Argument.readsBack first fun x inFirst =>
        faithful x (List.mem_append_left _ inFirst)
      have others := Argument.readsBack_all rest fun x inRest =>
        faithful x (List.mem_append_right _ inRest)
      rcases List.mem_cons.mp member with same | inRest
      · exact same ▸ own
      · exact others arg inRest

/-- A command reads back if its numbers do. -/
theorem Command.readsBack : ∀ entry : Command, Faithful entry.numbers → entry.ReadsBack
  | .mk head args => fun faithful => by
      rw [Command.numbers] at faithful
      exact Command.readsBack_mk head (Argument.readsBack_all args faithful)

theorem Command.readsBack_all : ∀ commands : List Command, Faithful (Command.numbersAll commands) →
    ∀ entry ∈ commands, entry.ReadsBack
  | [] => fun _ entry member => absurd member List.not_mem_nil
  | first :: rest => fun faithful entry member => by
      rw [Command.numbersAll] at faithful
      have own := Command.readsBack first fun x inFirst =>
        faithful x (List.mem_append_left _ inFirst)
      have others := Command.readsBack_all rest fun x inRest =>
        faithful x (List.mem_append_right _ inRest)
      rcases List.mem_cons.mp member with same | inRest
      · exact same ▸ own
      · exact others entry inRest

end

/-- The text of a script is read as its legible form. -/
theorem parse_render_legible (script : Script) (faithful : Faithful script.numbers) :
    Script.parse script.render = .ok script.legible := by
  obtain ⟨others, front⟩ := script_layout_front 0 script []
  have start : ((Cursor.ofText (script.layout 0 [])).skip isBlank).rest = script.layout 0 [] := by
    rw [front]
    rfl
  obtain ⟨behind, read, left⟩ := Script.readsBack_of_commands
    (Command.readsBack_all script faithful)
    0 (stepsFor (script.layout 0 []).length) [] _ start (by rw [start, stepsFor]; omega)
  rw [Script.parse, Script.render, String.toList_ofList]
  apply parse_of_block (start.trans front) read
  rw [Cursor.skip, left]
  rfl

/-- The text of a script is read as its legible form, which is written alike. If all numbers are
finite that is the script itself. -/
theorem parse_render (script : Script) (faithful : Faithful script.numbers) :
    Script.parse script.render = .ok script.legible ∧ script.legible.render = script.render ∧
      ((∀ x ∈ script.numbers, Decimal.isFinite x = true) →
        Script.parse script.render = .ok script) := by
  have reads := parse_render_legible script faithful
  refine ⟨reads, Script.render_legible script, fun finite => ?_⟩
  rw [reads, Script.legible, Command.legibles_of_finite script finite]

/-- A script with a bare block in it, with quotes in a text, and with a number that is not
finite. -/
def greeting : Script :=
  [.mk Keyword.block [.script [.mk ⟨"say", rfl⟩
    [.text "a \"b\"", .variable ⟨"x", rfl⟩, .list [.number (-12.5), .number (0.0 / 0.0)]]]],
   .mk Keyword.block [.number 3.0]]

/-- The script reads back, with the number that is not finite as a symbol. -/
theorem parse_render_greeting : Faithful greeting.numbers ∧
    Script.parse greeting.render = .ok greeting.legible ∧
      greeting.legible.render = greeting.render ∧
      ((∀ x ∈ greeting.numbers, Decimal.isFinite x = true) →
        Script.parse greeting.render = .ok greeting) := by
  have faithful : Faithful greeting.numbers := by
    rw [Faithful]
    decide +kernel
  exact ⟨faithful, parse_render greeting faithful⟩

end CommandScript.Source
