import CommandScript.Proofs.Source.Grafting
import CommandScript.Proofs.Source.Sufficiency

/-!
# Braces around a source text

A script may be written with braces around it or without. Commands that are read without braces are
read between braces as well, because no brace that closes a block can stand among them. And a text
that begins with a block is read as commands like any other: only if that block is the one command,
its script is taken out. So nothing hangs on which of the two readings comes first, errors and their
positions included.
-/

namespace CommandScript.Source

open CommandScript.Text

/-- The script of a block that stands alone, and other commands as they are. -/
def Script.unwrapped : Script → Script
  | [.mk head [.script inner]] =>
    if head = Keyword.block then inner else [.mk head [.script inner]]
  | script => script

/-- A single block is unwrapped. -/
theorem Script.unwrapped_block (script : Script) :
    Script.unwrapped [.mk Keyword.block [.script script]] = script := by
  rw [Script.unwrapped, if_pos rfl]

/-- Several commands are left as they are. -/
theorem Script.unwrapped_cons_cons (first second : Command) (others : Script) :
    Script.unwrapped (first :: second :: others) = first :: second :: others := by
  rw [Script.unwrapped]
  exact fun _ _ shape => nomatch (List.cons.inj shape).2

/-! ## Braces put around commands -/

/-- Between braces on lines of their own, commands spell a block. -/
theorem spellsBlock_of_spellsCommands {text : List Char} {script : Script}
    (spelled : SpellsCommands text script []) :
    SpellsBlock ('{' :: '\n' :: (text ++ ['\n', '}'])) script [] := by
  have newline : ∀ c ∈ ['\n'], isSeparator c = true := List.forall_mem_singleton.mpr rfl
  have last : SpellsCommands ['\n', '}'] [] ['}'] := .stop newline
  have inside : SpellsCommands (text ++ ['\n', '}']) script ['\n', '}'] := by
    obtain ⟨own, rest, graft⟩ := spelled.grafts
    rw [rest, List.append_nil]
    exact graft _ (.inr (endsCommand_cons (.inr (.inl rfl)) _))
  have closed := inside.append last
  rw [List.append_nil] at closed
  exact .braces (closed.behind_separators newline)

/-- Commands in braces are read as the script they make. -/
theorem parse_braced {text : List Char} {script : Script} (read : parseCommands text = .ok script) :
    parse ('{' :: '\n' :: (text ++ ['\n', '}'])) = .ok script := by
  have nothing : ∀ c ∈ ([] : List Char), isBlank c = true := List.forall_mem_nil _
  have block := spellsBlock_of_spellsCommands (spells_of_parseCommands read)
  exact parse_of_spellsOneBlock (.intro nothing block (List.forall_mem_nil _))

/-! ## A block at the front -/

/-- In front of a brace there are no separators but blanks. -/
theorem skip_isSeparator_of_brace {cursor : Cursor} {rest : List Char}
    (front : (cursor.skip isBlank).rest = '{' :: rest) :
    cursor.skip isSeparator = cursor.skip isBlank := by
  have parts : ∀ text : List Char, text.dropWhile isBlank = '{' :: rest →
      text.takeWhile isSeparator = text.takeWhile isBlank ∧
        text.dropWhile isSeparator = text.dropWhile isBlank := by
    intro text
    induction text with
    | nil => exact nofun
    | cons c text ih =>
        intro brace
        cases blank : isBlank c with
        | true =>
            have separates : isSeparator c = true := by rw [isSeparator, blank, Bool.true_or]
            rw [List.dropWhile_cons_of_pos blank] at brace
            simp [separates, blank, ih brace]
        | false =>
            rw [List.dropWhile_cons_of_neg (Bool.eq_false_iff.mp blank)] at brace
            cases brace
            exact ⟨rfl, rfl⟩
  obtain ⟨taken, left⟩ := parts cursor.rest front
  rw [Cursor.skip, Cursor.skip, taken, left]

/-- A block, and the commands behind it. -/
theorem commands_of_brace {cursor start : Cursor} {rest : List Char} (steps : Nat)
    (skipped : cursor.skip isSeparator = start) (front : start.rest = '{' :: rest) :
    commands (steps + 2) false cursor = block steps start >>= fun read =>
      commands (steps + 1) false (read.2.skip isInlineBlank) >>= fun found =>
        .ok (.mk Keyword.block [.script read.1] :: found.1, found.2) := by
  rw [commands, skipped, front]
  cases read : block steps start with
  | error error =>
      have failed : command (steps + 1) false start = .error error := by
        rw [command, front]
        simp only [read]
        rfl
      simp only [failed]
      rfl
  | ok read' =>
      obtain ⟨script, behind⟩ := read'
      have checked := @afterCommand_of_isBareBlock false (.mk Keyword.block [.script script])
        (behind.skip isInlineBlank) rfl
      simp only [command_of_brace front read, Bool.false_and, Bool.false_eq_true, ↓reduceIte]
      change (afterCommand false _ _ >>= fun _ => _) = _
      rw [checked]
      rfl

/-- Outside a block there are no commands only at the end of the text. -/
theorem rest_of_commands_nil {steps : Nat} {cursor behind : Cursor}
    (read : commands steps false cursor = .ok ([], behind)) :
    (cursor.skip isSeparator).rest = [] := by
  cases steps with
  | zero => cases read
  | succ steps =>
      cases commands_outcome read with
      | ended closes => exact closes.eq_nil

section Front

variable {text rest : List Char} (front : ((Cursor.ofText text).skip isBlank).rest = '{' :: rest)
include front

/-- Read as commands, a text that begins with a block is that block and what stands behind it. -/
theorem parseCommands_of_brace : parseCommands text =
    (block (stepsFor text.length) ((Cursor.ofText text).skip isBlank) >>= fun read =>
      commands (4 * text.length + 7) false (read.2.skip isInlineBlank) >>= fun found =>
        .ok (.mk Keyword.block [.script read.1] :: found.1, found.2)).map Prod.fst := by
  have within : ((Cursor.ofText text).skip isBlank).rest.length ≤ text.length :=
    length_rest_skip_le (Cursor.ofText text) isBlank
  have enough : block (4 * text.length + 6) ((Cursor.ofText text).skip isBlank) =
      block (stepsFor text.length) ((Cursor.ofText text).skip isBlank) :=
    (sameWith _ _).block _ (by omega) (by rw [stepsFor]; omega)
  rw [← enough, ← commands_of_brace _ (skip_isSeparator_of_brace front) front]
  rfl

variable {script : Script} {behind : Cursor}
  (read : block (stepsFor text.length) ((Cursor.ofText text).skip isBlank) = .ok (script, behind))
include read

/-- A block with nothing but separators behind it is the only command. -/
theorem parseCommands_of_only (finished : (behind.skip isSeparator).rest = []) :
    parseCommands text = .ok [.mk Keyword.block [.script script]] := by
  have ended : ((behind.skip isInlineBlank).skip isSeparator).rest = [] :=
    (rest_skip_skip behind).trans finished
  rw [parseCommands_of_brace front, read]
  change (commands (4 * text.length + 6 + 1) false (behind.skip isInlineBlank) >>= fun found =>
    .ok (.mk Keyword.block [.script script] :: found.1, found.2)).map Prod.fst = _
  rw [commands_of_end .source ended]
  rfl

/-- With something else behind it, nothing is taken out of the block. -/
theorem unwrapped_parseCommands (goesOn : (behind.skip isSeparator).rest ≠ []) :
    (parseCommands text).map Script.unwrapped = parseCommands text := by
  rw [parseCommands_of_brace front, read]
  change ((commands (4 * text.length + 7) false (behind.skip isInlineBlank) >>= fun found =>
    .ok (.mk Keyword.block [.script script] :: found.1, found.2)).map Prod.fst).map _ =
      (commands (4 * text.length + 7) false (behind.skip isInlineBlank) >>= fun found =>
        .ok (.mk Keyword.block [.script script] :: found.1, found.2)).map Prod.fst
  cases others : commands (4 * text.length + 7) false (behind.skip isInlineBlank) with
  | error error => rfl
  | ok found =>
      obtain ⟨later, finish⟩ := found
      cases later with
      | nil =>
          have finished := (rest_skip_skip behind).symm.trans (rest_of_commands_nil others)
          exact absurd finished goesOn
      | cons second later => exact congrArg Except.ok (Script.unwrapped_cons_cons _ second later)

end Front

/-- If a text begins with a block, it is read as commands are, and a single block is taken out. -/
theorem parse_of_brace {text rest : List Char}
    (front : ((Cursor.ofText text).skip isBlank).rest = '{' :: rest) :
    parse text = (parseCommands text).map Script.unwrapped := by
  rw [parse]
  simp only [front]
  cases read : block (stepsFor text.length) ((Cursor.ofText text).skip isBlank) with
  | error error =>
      rw [parseCommands_of_brace front, read]
      rfl
  | ok read' =>
      obtain ⟨script, behind⟩ := read'
      by_cases finished : (behind.skip isSeparator).rest = []
      · simp only [finished, List.isEmpty_nil, ↓reduceIte]
        rw [parseCommands_of_only front read finished]
        exact congrArg Except.ok (Script.unwrapped_block script).symm
      · have more : (behind.skip isSeparator).rest.isEmpty = false := by simpa using finished
        simp only [more, Bool.false_eq_true, ↓reduceIte]
        exact (unwrapped_parseCommands front read finished).symm

/-! ## Whole sources -/

/-- The two forms of a source text agree. -/
structure FormsAgree (text : String) : Prop where
  /-- Without a brace at the front, a text is read between braces as it is read without them. -/
  braced : '{' ∉ (text.toList.dropWhile isBlank).head? → ∀ script,
    Script.parse text = .ok script → Script.parse ("\x7b\n" ++ text ++ "\n\x7d") = .ok script
  /-- With a brace at the front, a text is read as commands, and a single block is taken out. -/
  shortcut : '{' ∈ (text.toList.dropWhile isBlank).head? →
    Script.parse text = (parseCommands text.toList).map Script.unwrapped

/-- With braces around it or without, and as a block or as commands, a source is read alike. -/
theorem parse_formsAgree (text : String) : FormsAgree text where
  braced front script read := by
    have plain : parseCommands text.toList = .ok script := by
      rw [Script.parse, parse] at read
      split at read
      · rename_i rest brace
        exact absurd (congrArg List.head? brace) fun first => front first
      · exact read
    have shape : ("\x7b\n" ++ text ++ "\n\x7d").toList =
        '{' :: '\n' :: (text.toList ++ ['\n', '}']) := by
      simp
    rw [Script.parse, shape]
    exact parse_braced plain
  shortcut front := by
    obtain ⟨rest, shape⟩ := List.head?_eq_some_iff.mp front
    exact parse_of_brace shape

end CommandScript.Source
