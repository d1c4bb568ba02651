import CommandScript.Proofs.Source.Advance
import CommandScript.Proofs.Source.Grafting

/-!
# Where a source text is refused

An error tells a position in the text, and the text in front of that position can always be
completed to a program: open blocks, lists and texts can be closed, and a sign can be given a name.
There is one exception. A character that a backslash does not escape is reported behind that
character, so that only the text in front of it can be completed.
-/

namespace CommandScript.Source

open CommandScript.Text

/-- What the reader has taken, when it tells the position, of what no program can begin with. -/
def Fault.excess : Fault → List Char
  | .unknownEscape found => [found]
  | _ => []

/-- The reader began at the cursor, took this text, and told the error behind it and its excess. -/
structure GivesUp (cursor : Cursor) (error : ParseError) (front : List Char) : Prop where
  read : front ++ error.fault.excess <+: cursor.rest
  position : error.position = cursor.position.after (front ++ error.fault.excess)

/-- A reader may give up where it stands. -/
theorem givesUp_nil (cursor : Cursor) {fault : Fault} (clean : fault.excess = []) :
    GivesUp cursor ⟨cursor.position, fault⟩ [] := by
  constructor
  · rw [clean]
    exact List.nil_prefix
  · rw [clean]
    rfl

/-- What was read before counts with what the reader has taken. -/
theorem GivesUp.of_behind {cursor middle : Cursor} {error : ParseError} {own front : List Char}
    (gives : GivesUp middle error front) (behind : middle.Behind own cursor) :
    GivesUp cursor error (own ++ front) := by
  obtain ⟨rest, position⟩ := behind
  constructor
  · rw [rest, List.append_assoc]
    exact (List.prefix_append_right_inj own).mpr gives.read
  · rw [gives.position, position, ← Position.after_append, List.append_assoc]

/-- What has been read fits behind a part that was read in front of it. -/
theorem GivesUp.fits {cursor : Cursor} {error : ParseError} {front : List Char}
    (gives : GivesUp cursor error front) (inhabited : front ≠ []) (other : List Char) :
    Fits cursor.rest (front ++ other) := by
  obtain ⟨c, own, rfl⟩ := List.exists_cons_of_ne_nil inhabited
  obtain ⟨others, rest⟩ := gives.read
  rw [← rest]
  exact fits_cons c _ _

/-- Something can be put behind the text so that it spells a part, in front of whatever ends a
command. -/
def Completable {α : Type} (spells : List Char → α → List Char → Prop) (front : List Char) : Prop :=
  ∃ rest tree, ∀ after, EndsCommand after → spells (front ++ (rest ++ after)) tree after

/-- The reader of a part gave up at once, or behind a text that can be completed. -/
def StopsShort {α : Type} (spells : List Char → α → List Char → Prop) (cursor : Cursor)
    (error : ParseError) : Prop :=
  ∃ front, GivesUp cursor error front ∧ (front = [] ∨ Completable spells front)

section Parts

variable {α β : Type} {spells : List Char → α → List Char → Prop}
  {whole : List Char → β → List Char → Prop} {cursor middle : Cursor} {error : ParseError}

/-- A refusal at the place stops short of what could have been completed. -/
theorem stopsShort_of_refuse {fault : Fault} (clean : fault.excess = [])
    (refused : (cursor.refuse fault : Except ParseError α) = .error error) :
    StopsShort whole cursor error := by
  cases refused
  exact ⟨[], givesUp_nil cursor clean, .inl rfl⟩

/-- The reader of a part gave up behind what had been read before. A completion of that part is
closed to one of the whole. If the part was not begun, what had been read must be completed. -/
theorem StopsShort.of_behind {own : List Char} (stops : StopsShort spells middle error)
    (behind : middle.Behind own cursor) (closing : List Char)
    (closes : ∀ after, EndsCommand after → EndsCommand (closing ++ after)) (root : α → β)
    (build : ∀ {before tree after}, EndsCommand after → Fits middle.rest before →
      spells before tree (closing ++ after) → whole (own ++ before) (root tree) after)
    (alone : own ≠ [] → Completable whole own) : StopsShort whole cursor error := by
  obtain ⟨front, gives, completable⟩ := stops
  refine ⟨own ++ front, gives.of_behind behind, ?_⟩
  by_cases started : front = []
  · rw [started, List.append_nil]
    by_cases nothing : own = []
    · exact .inl nothing
    · exact .inr (alone nothing)
  · obtain ⟨rest, tree, spelled⟩ := completable.resolve_left started
    refine .inr ⟨rest ++ closing, root tree, fun after ends => ?_⟩
    rw [List.append_assoc, List.append_assoc]
    exact build ends (gives.fits started _) (spelled _ (closes after ends))

/-- The reader of a part gave up where the whole begins. -/
theorem StopsShort.of_part (stops : StopsShort spells cursor error) (root : α → β)
    (build : ∀ {before tree after}, spells before tree after → whole before (root tree) after) :
    StopsShort whole cursor error :=
  stops.of_behind (.refl cursor) [] (fun _ ends => ends) root (fun _ _ spelled => build spelled)
    fun nothing => absurd rfl nothing

/-- What is read in front of a cursor is read in front of any other text that fits there. -/
theorem Grafts.of_behind {tree : α} {own : List Char}
    (grafts : Grafts spells cursor.rest tree middle.rest) (behind : middle.Behind own cursor)
    {other : List Char} (fits : Fits middle.rest other) :
    spells (own ++ other) tree other := by
  obtain ⟨taken, rest, graft⟩ := grafts
  rw [List.append_cancel_right (behind.1.symm.trans rest)]
  exact graft other fits

end Parts

/-! ## Words -/

/-- The error names the place where another character was expected. -/
theorem error_of_expect {wanted : Char} {cursor : Cursor} {error : ParseError}
    (refused : expect wanted cursor = .error error) :
    ∃ fault : Fault, fault.excess = [] ∧ error = ⟨cursor.position, fault⟩ := by
  rw [expect] at refused
  split at refused
  · cases refused
    exact ⟨_, rfl, rfl⟩
  · split at refused
    · cases refused
    · cases refused
      exact ⟨_, rfl, rfl⟩

/-- A character that is missing may be put in front of the rest. -/
theorem stopsShort_of_expect {α : Type} {spells : List Char → α → List Char → Prop} {wanted : Char}
    {cursor : Cursor} {error : ParseError} (refused : expect wanted cursor = .error error) :
    StopsShort spells cursor error := by
  obtain ⟨fault, clean, rfl⟩ := error_of_expect refused
  exact ⟨[], givesUp_nil cursor clean, .inl rfl⟩

/-- The error names the place where a word was expected. -/
theorem error_of_word {cursor : Cursor} {error : ParseError}
    (refused : word cursor = .error error) :
    ∃ fault : Fault, fault.excess = [] ∧ error = ⟨cursor.position, fault⟩ := by
  rw [word] at refused
  split at refused
  · cases refused
    exact ⟨_, rfl, rfl⟩
  · split at refused
    · cases refused
      exact ⟨_, rfl, rfl⟩
    · cases refused

theorem error_of_symbolAt {position : Position} {text : List Char} {error : ParseError}
    (refused : symbolAt position text = .error error) :
    ∃ fault : Fault, fault.excess = [] ∧ error = ⟨position, fault⟩ := by
  rw [symbolAt] at refused
  split at refused
  · cases refused
  · cases refused
    exact ⟨_, rfl, rfl⟩

theorem error_of_headWord {cursor : Cursor} {error : ParseError}
    (refused : headWord cursor = .error error) :
    ∃ fault : Fault, fault.excess = [] ∧ error = ⟨cursor.position, fault⟩ := by
  cases headWord_outcome refused with
  | badWord refused => exact error_of_word refused
  | numeral text => exact ⟨_, rfl, rfl⟩
  | badSymbol refused => exact error_of_symbolAt refused

theorem error_of_plainWord {cursor : Cursor} {error : ParseError}
    (refused : plainWord cursor = .error error) :
    ∃ fault : Fault, fault.excess = [] ∧ error = ⟨cursor.position, fault⟩ := by
  cases plainWord_outcome refused with
  | badWord refused => exact error_of_word refused
  | badSymbol refused => exact error_of_symbolAt refused

/-- In place of a word that is refused another could stand. -/
theorem stopsShort_of_plainWord {cursor : Cursor} {error : ParseError}
    (refused : plainWord cursor = .error error) : StopsShort SpellsArgument cursor error := by
  obtain ⟨fault, clean, rfl⟩ := error_of_plainWord refused
  exact ⟨[], givesUp_nil cursor clean, .inl rfl⟩

/-- A sign can be given any name. -/
theorem completable_sign : Completable SpellsArgument ['$'] :=
  ⟨Keyword.block.text.toList, .variable Keyword.block, fun _ ends =>
    .reference Keyword.block (isDelimiter_of_endsCommand ends)⟩

/-- In place of a name that is refused another could stand. -/
theorem stopsShort_of_variableWord {cursor : Cursor} {error : ParseError} {rest : List Char}
    (front : cursor.rest = '$' :: rest) (refused : variableWord cursor = .error error) :
    StopsShort SpellsArgument cursor error := by
  cases variableWord_outcome refused with
  | badWord refused =>
      obtain ⟨fault, clean, rfl⟩ := error_of_word refused
      have behind := cursor.behind_advance 1
      rw [front] at behind
      exact ⟨['$'], (givesUp_nil _ clean).of_behind behind, .inr completable_sign⟩
  | badName refused =>
      obtain ⟨fault, clean, rfl⟩ := error_of_symbolAt refused
      exact ⟨[], givesUp_nil cursor clean, .inl rfl⟩

/-! ## Texts between quotes -/

/-- Characters that are spelled may follow each other. -/
theorem SpellsCharacters.append {written text later more : List Char}
    (first : SpellsCharacters written text) (second : SpellsCharacters later more) :
    SpellsCharacters (written ++ later) (text ++ more) := by
  induction first with
  | nil => exact second
  | plain quote backslash others ih => exact .plain quote backslash ih
  | escape known others ih => exact .escape known ih

/-- A text is refused at its opening quote, or behind a character that is not escaped. -/
theorem error_of_textBody {opening position : Position} {before : List Char} {error : ParseError}
    (refused : textBody opening before position = .error error) :
    error = ⟨opening, .unterminatedText⟩ ∨
      ∃ written text c, SpellsCharacters written text ∧ error.fault = .unknownEscape c ∧
        written ++ ['\\', c] <+: before ∧
        error.position = position.after (written ++ ['\\', c]) := by
  fun_induction textBody opening before position with
  | case1 =>
      cases refused
      exact .inl rfl
  | case2 => cases refused
  | case3 =>
      cases refused
      exact .inl rfl
  | case4 c rest position later unknown =>
      cases refused
      exact .inr ⟨[], [], c, .nil, rfl, List.prefix_append ['\\', c] rest, rfl⟩
  | case5 => cases refused
  | case6 code rest position later meant known told badRest =>
      rename_i ih
      cases refused
      refine (ih badRest).imp id ?_
      rintro ⟨written, text, c, spelled, fault, read, place⟩
      refine ⟨'\\' :: code :: written, _, c, .escape (mem_escapes_of_unescaped? known) spelled,
        fault, ?_, place⟩
      exact (List.prefix_append_right_inj ['\\', code]).mpr read
  | case7 => cases refused
  | case8 d rest position quote single backslash told badRest ih =>
      cases refused
      refine (ih badRest).imp id ?_
      rintro ⟨written, text, c, spelled, fault, read, place⟩
      have plain : d ≠ '\\' := by
        rintro rfl
        cases shape : rest with
        | nil => exact single rfl shape
        | cons code others => exact backslash code others rfl shape
      refine ⟨d :: written, _, c, .plain quote plain spelled, fault, ?_, place⟩
      exact (List.prefix_append_right_inj [d]).mpr read

/-- A raw text that is not ended is reported where it begins. -/
theorem error_of_rawTextBody {opening position : Position} {before : List Char} {error : ParseError}
    (refused : rawTextBody opening before position = .error error) :
    error = ⟨opening, .unterminatedRawText⟩ := by
  fun_induction rawTextBody opening before position with
  | case1 =>
      cases refused
      rfl
  | case2 => cases refused
  | case3 => cases refused
  | case4 c rest position goesOn told badRest ih =>
      cases refused
      exact ih badRest

/-- Behind a backslash another one may stand, and then the quote that closes the text. -/
theorem completable_backslash {written text : List Char} (spelled : SpellsCharacters written text) :
    Completable SpellsText ('"' :: (written ++ ['\\'])) := by
  refine ⟨['\\', '"'], String.ofList (text ++ ['\\']), fun after _ => ?_⟩
  have inside : SpellsCharacters (written ++ ['\\', '\\']) (text ++ ['\\']) :=
    spelled.append (.escape (by decide) .nil)
  have single : ¬ rawQuotes <+: '"' :: (written ++ ['\\', '\\'] ++ '"' :: after) := by
    rw [rawQuotes_prefix_iff inside.begins]
    simp
  simpa using SpellsText.quoted inside single

/-- What is read of a quotation that is refused could have been completed. -/
theorem stopsShort_of_quotation {cursor : Cursor} {error : ParseError}
    (refused : quotation cursor = .error error) : StopsShort SpellsText cursor error := by
  have atOpening : ∀ {fault : Fault}, fault.excess = [] →
      StopsShort SpellsText cursor ⟨cursor.position, fault⟩ :=
    fun clean => ⟨[], givesUp_nil cursor clean, .inl rfl⟩
  cases quotation_outcome refused with
  | badRaw refused =>
      rw [error_of_rawTextBody refused]
      exact atOpening rfl
  | unopened missing => exact stopsShort_of_expect missing
  | @badText inside _ opened refused =>
      rcases error_of_textBody refused with rfl | ⟨written, text, c, spelled, fault, read, place⟩
      · exact atOpening rfl
      · have excess : written ++ ['\\'] ++ error.fault.excess = written ++ ['\\', c] := by
          rw [fault]
          exact List.append_assoc ..
        have gives : GivesUp inside error (written ++ ['\\']) :=
          ⟨excess ▸ read, excess ▸ place⟩
        exact ⟨_, gives.of_behind (behind_of_expect opened), .inr (completable_backslash spelled)⟩

/-! ## Nested parts -/

/-- Wherever the readers of nested parts give up with this many steps, they stop short. -/
structure Refuses (steps : Nat) : Prop where
  block : ∀ {cursor : Cursor} {error : ParseError}, block steps cursor = .error error →
    StopsShort SpellsBlock cursor error
  commands : ∀ {inBlock : Bool} {cursor : Cursor} {error : ParseError},
    commands steps inBlock cursor = .error error → StopsShort SpellsCommands cursor error
  command : ∀ {inBlock : Bool} {cursor : Cursor} {error : ParseError},
    command steps inBlock cursor = .error error → StopsShort SpellsCommands cursor error
  arguments : ∀ {inBlock : Bool} {cursor : Cursor} {error : ParseError},
    arguments steps inBlock cursor = .error error → StopsShort SpellsArguments cursor error
  argument : ∀ {cursor : Cursor} {error : ParseError}, argument steps cursor = .error error →
    StopsShort SpellsArgument cursor error
  items : ∀ {cursor : Cursor} {error : ParseError}, items steps cursor = .error error →
    StopsShort SpellsItems cursor error

/-- Without steps every reader gives up at once. -/
theorem refuses_zero : Refuses 0 where
  block refused := stopsShort_of_refuse rfl refused
  commands refused := stopsShort_of_refuse rfl refused
  command refused := stopsShort_of_refuse rfl refused
  arguments refused := stopsShort_of_refuse rfl refused
  argument refused := stopsShort_of_refuse rfl refused
  items refused := stopsShort_of_refuse rfl refused

/-- Commands that have been read are completed by what ends a command. -/
theorem completable_commands {cursor middle : Cursor} {own : List Char} {script : Script}
    (spelled : SpellsCommands cursor.rest script middle.rest) (behind : middle.Behind own cursor) :
    Completable SpellsCommands own :=
  ⟨[], script, fun _ ends => spelled.grafts.of_behind behind (.inr ends)⟩

/-- Behind separators a script may end. -/
theorem completable_separators {own : List Char} (separates : ∀ c ∈ own, isSeparator c = true) :
    Completable SpellsCommands own :=
  ⟨[], [], fun _ _ => .stop separates⟩

section Step

variable {steps : Nat} (less : Refuses steps)
include less

/-- What is read of a block that is refused could have been completed. -/
theorem Refuses.block_succ {cursor : Cursor} {error : ParseError}
    (refused : Source.block (steps + 1) cursor = .error error) :
    StopsShort SpellsBlock cursor error := by
  have closes : ∀ after, EndsCommand after → EndsCommand (['}'] ++ after) :=
    fun after _ => endsCommand_cons (.inr (.inr rfl)) after
  have empty : Completable SpellsBlock ['{'] :=
    ⟨['}'], [], fun after _ => .braces (spellsCommands_nil _)⟩
  cases block_outcome refused with
  | unopened missing => exact stopsShort_of_expect missing
  | badInside opened refused =>
      exact (less.commands refused).of_behind (behind_of_expect opened) ['}'] closes id
        (fun _ _ spelled => .braces spelled) fun _ => empty
  | @unclosed _ closing script _ opened readInside missing =>
      obtain ⟨fault, clean, rfl⟩ := error_of_expect missing
      obtain ⟨own, moved⟩ := (advances steps).commands readInside
      have spelled := ((accepts steps).commands readInside).1
      refine ⟨_, (givesUp_nil closing clean).of_behind ((behind_of_expect opened).trans moved),
        .inr ⟨['}'], script, fun after ends => ?_⟩⟩
      rw [List.append_nil, List.append_assoc]
      exact .braces (spelled.grafts.of_behind moved (.inr (closes after ends)))

theorem Refuses.commands_succ {inBlock : Bool} {cursor : Cursor} {error : ParseError}
    (refused : Source.commands (steps + 1) inBlock cursor = .error error) :
    StopsShort SpellsCommands cursor error := by
  have skipped := cursor.behind_skip isSeparator
  have separates : ∀ c ∈ cursor.rest.takeWhile isSeparator, isSeparator c = true :=
    fun _ member => List.mem_takeWhile_imp member
  have spelled {first : Command} {middle : Cursor}
      (readFirst : Source.command steps inBlock (cursor.skip isSeparator) = .ok (first, middle)) :
      SpellsCommands cursor.rest [first] middle.rest := by
    rw [skipped.1]
    exact ((accepts steps).command readFirst (spellsCommands_nil _)).behind_separators separates
  cases commands_outcome refused with
  | unterminated _ _ =>
      refine ⟨_, (givesUp_nil _ rfl).of_behind skipped, .inr ?_⟩
      rw [List.append_nil]
      exact completable_separators separates
  | badFirst refused =>
      exact (less.command refused).of_behind skipped [] (fun _ ends => ends) id
        (fun _ _ spelled => spelled.behind_separators separates)
        fun _ => completable_separators separates
  | @badEnd first middle _ readFirst refused =>
      obtain ⟨own, moved⟩ := (advances steps).command readFirst
      have behind := skipped.trans moved
      rw [afterCommand] at refused
      split at refused
      · cases refused
      · split at refused
        · cases refused
        · cases refused
          refine ⟨_, (givesUp_nil middle rfl).of_behind behind, .inr ?_⟩
          rw [List.append_nil]
          exact completable_commands (spelled readFirst) behind
  | @badRest first middle _ readFirst _ refused =>
      obtain ⟨own, moved⟩ := (advances steps).command readFirst
      have behind := skipped.trans moved
      exact (less.commands refused).of_behind behind [] (fun _ ends => ends) (first :: ·)
        (fun _ fits tail => ((spelled readFirst).grafts.of_behind behind fits).append tail)
        fun _ => completable_commands (spelled readFirst) behind

theorem Refuses.command_succ {inBlock : Bool} {cursor : Cursor} {error : ParseError}
    (refused : Source.command (steps + 1) inBlock cursor = .error error) :
    StopsShort SpellsCommands cursor error := by
  have nothing : ∀ c ∈ ([] : List Char), isSeparator c = true := List.forall_mem_nil _
  have none : ∀ c ∈ ([] : List Char), isInlineBlank c = true := List.forall_mem_nil _
  cases command_outcome refused with
  | badBlock _ refused =>
      exact (less.block refused).of_part (fun script => [.mk Keyword.block [.script script]])
        fun spelled => .block nothing spelled (.stop nothing)
  | badHead refused =>
      obtain ⟨fault, clean, rfl⟩ := error_of_headWord refused
      exact ⟨[], givesUp_nil cursor clean, .inl rfl⟩
  | @badArguments head middle _ readHead refused =>
      obtain ⟨own, behind⟩ := follows_of_headWord readHead
      obtain ⟨rest, ends⟩ := rest_of_headWord readHead
      obtain rfl := List.append_cancel_right (behind.1.symm.trans rest)
      refine (less.arguments refused).of_behind behind [] (fun _ ends => ends)
        (fun args => [.mk head args])
        (fun _ fits spelled => .call nothing head (fits.endsWord ends) spelled (.stop nothing))
        fun _ => ⟨[], [.mk head []], fun after closes => ?_⟩
      exact .call nothing head (isDelimiter_of_endsCommand closes) (.stop none closes)
        (.stop nothing)

theorem Refuses.arguments_succ {inBlock : Bool} {cursor : Cursor} {error : ParseError}
    (refused : Source.arguments (steps + 1) inBlock cursor = .error error) :
    StopsShort SpellsArguments cursor error := by
  have skipped := cursor.behind_skip isInlineBlank
  have inline : ∀ c ∈ cursor.rest.takeWhile isInlineBlank, isInlineBlank c = true :=
    fun _ member => List.mem_takeWhile_imp member
  have none : ∀ c ∈ ([] : List Char), isInlineBlank c = true := List.forall_mem_nil _
  cases arguments_outcome refused with
  | badFirst refused =>
      exact (less.argument refused).of_behind skipped [] (fun _ ends => ends) ([·])
        (fun ends _ spelled => .argument inline spelled (.stop none ends))
        fun _ => ⟨[], [], fun _ ends => .stop inline ends⟩
  | @badRest first middle _ readFirst refused =>
      obtain ⟨own, moved⟩ := (advances steps).argument readFirst
      have spelled := ((accepts steps).argument readFirst).grafts
      refine (less.arguments refused).of_behind (skipped.trans moved) [] (fun _ ends => ends)
        (first :: ·) (fun _ fits tail => ?_) fun _ => ⟨[], [first], fun after ends => ?_⟩
      · rw [List.append_assoc]
        exact .argument inline (spelled.of_behind moved fits) tail
      · rw [List.append_assoc]
        exact .argument inline (spelled.of_behind moved (.inr ends)) (.stop none ends)

theorem Refuses.argument_succ {cursor : Cursor} {error : ParseError}
    (refused : Source.argument (steps + 1) cursor = .error error) :
    StopsShort SpellsArgument cursor error := by
  cases argument_outcome refused with
  | badBlock _ refused => exact (less.block refused).of_part .script .script
  | badItems opened refused =>
      refine (less.items refused).of_behind (behind_of_expect opened) [] (fun _ ends => ends)
        .list (fun _ _ spelled => .list spelled) fun _ => ⟨[']'], .list [], fun after _ => ?_⟩
      exact .list (@SpellsItems.close [] _ (List.forall_mem_nil _))
  | badText _ refused => exact (stopsShort_of_quotation refused).of_part .text .text
  | sign front refused => exact stopsShort_of_variableWord front refused
  | mark c => exact ⟨[], givesUp_nil cursor rfl, .inl rfl⟩
  | word refused => exact stopsShort_of_plainWord refused

theorem Refuses.items_succ {cursor : Cursor} {error : ParseError}
    (refused : Source.items (steps + 1) cursor = .error error) :
    StopsShort SpellsItems cursor error := by
  have skipped := cursor.behind_skip isBlank
  have blank : ∀ c ∈ cursor.rest.takeWhile isBlank, isBlank c = true :=
    fun _ member => List.mem_takeWhile_imp member
  have closes : ∀ after, EndsCommand after → EndsCommand (['\n', ']'] ++ after) :=
    fun after _ => endsCommand_cons (.inr (.inl rfl)) _
  have closed : ∀ after, SpellsItems (['\n', ']'] ++ after) [] after :=
    fun after => @SpellsItems.close ['\n'] after (List.forall_mem_singleton.mpr rfl)
  have empty : Completable SpellsItems (cursor.rest.takeWhile isBlank) :=
    ⟨[']'], [], fun _ _ => .close blank⟩
  cases items_outcome refused with
  | unterminated _ =>
      refine ⟨_, (givesUp_nil _ rfl).of_behind skipped, .inr ?_⟩
      rwa [List.append_nil]
  | badFirst refused =>
      exact (less.argument refused).of_behind skipped ['\n', ']'] closes ([·])
        (fun _ _ spelled => .item blank spelled (closed _)) fun _ => empty
  | @badRest first middle _ readFirst refused =>
      obtain ⟨own, moved⟩ := (advances steps).argument readFirst
      have spelled := ((accepts steps).argument readFirst).grafts
      refine (less.items refused).of_behind (skipped.trans moved) [] (fun _ ends => ends)
        (first :: ·) (fun _ fits tail => ?_) fun _ => ⟨['\n', ']'], [first], fun after ends => ?_⟩
      · rw [List.append_assoc]
        exact .item blank (spelled.of_behind moved fits) tail
      · rw [List.append_assoc]
        exact .item blank (spelled.of_behind moved (.inr (closes after ends))) (closed after)

end Step

/-- All readers stop short of what could have been completed, whatever the number of steps. -/
theorem refuses (steps : Nat) : Refuses steps := by
  induction steps with
  | zero => exact refuses_zero
  | succ steps less => exact {
      block := less.block_succ
      commands := less.commands_succ
      command := less.command_succ
      arguments := less.arguments_succ
      argument := less.argument_succ
      items := less.items_succ }

/-! ## Whole sources -/

/-- A text that spells commands is a program, whether or not it is a single block. -/
theorem exists_parse_of_spellsCommands {text : List Char} {script : Script}
    (spelled : SpellsCommands text script []) : ∃ read, parse text = .ok read := by
  by_cases single : ∃ other, SpellsOneBlock text other
  · obtain ⟨other, only⟩ := single
    exact ⟨other, parse_of_spellsOneBlock only⟩
  · exact ⟨script, parse_of_spellsCommands spelled fun other only => single ⟨other, only⟩⟩

/-- So does the reader of commands on a whole text. -/
theorem stopsShort_of_parseCommands {text : List Char} {error : ParseError}
    (refused : parseCommands text = .error error) :
    StopsShort SpellsCommands (Cursor.ofText text) error := by
  rw [parseCommands] at refused
  cases found : commands (stepsFor text.length) false (Cursor.ofText text) with
  | ok result =>
      rw [found] at refused
      cases refused
  | error told =>
      rw [found] at refused
      cases refused
      exact (refuses _).commands found

/-- So does the reader of scripts on a whole text. -/
theorem stopsShort_of_parse {text : List Char} {error : ParseError}
    (refused : parse text = .error error) :
    StopsShort SpellsCommands (Cursor.ofText text) error := by
  have skipped := (Cursor.ofText text).behind_skip isBlank
  have separates : ∀ c ∈ (Cursor.ofText text).rest.takeWhile isBlank, isSeparator c = true := by
    intro c member
    rw [isSeparator, List.mem_takeWhile_imp member, Bool.true_or]
  rw [parse] at refused
  split at refused
  · split at refused
    · rename_i told badBlock
      cases refused
      exact ((refuses _).block badBlock).of_behind skipped [] (fun _ ends => ends)
        (fun script => [.mk Keyword.block [.script script]])
        (fun _ _ spelled => .block separates spelled (spellsCommands_nil _))
        fun _ => completable_separators separates
    · split at refused
      · cases refused
      · exact stopsShort_of_parseCommands refused
  · exact stopsShort_of_parseCommands refused

/-- What is known of an error in a text: its position is that of a place in the text, and in front
of that place, and of the character that was not escaped if that is the fault, stands what some
program begins with. -/
structure Locates (text : String) (error : ParseError) (front back : List Char) : Prop where
  text_eq : text.toList = front ++ (error.fault.excess ++ back)
  position_eq : error.position = Position.start.after (front ++ error.fault.excess)
  completable : ∃ rest script, Script.parse (String.ofList (front ++ rest)) = .ok script

/-- Every error has the position of a place in the text, and some program begins with what stands in
front of it, but for what a bad escape takes with it. -/
theorem locates_of_parse {text : String} {error : ParseError}
    (refused : Script.parse text = .error error) : ∃ front back, Locates text error front back := by
  obtain ⟨front, gives, completable⟩ := stopsShort_of_parse refused
  obtain ⟨back, shape⟩ := gives.read
  have begins : Completable SpellsCommands front := by
    rcases completable with rfl | completable
    · exact completable_separators (List.forall_mem_nil _)
    · exact completable
  obtain ⟨rest, script, spelled⟩ := begins
  have whole : SpellsCommands (front ++ rest) script [] := by
    rw [← List.append_nil rest]
    exact spelled [] nofun
  obtain ⟨read, parsed⟩ := exists_parse_of_spellsCommands whole
  refine ⟨front, back, ?_, gives.position, rest, read, ?_⟩
  · rw [← List.append_assoc]
    exact shape.symm
  · rw [Script.parse, String.toList_ofList]
    exact parsed

/-! ## A character that is not escaped -/

/-- A word that is the head of a command is taken, and nothing else. -/
theorem headWord_eq {cursor : Cursor} {head : Symbol} {following : List Char}
    (rest : cursor.rest = head.text.toList ++ following) (ends : EndsWord following) :
    headWord cursor = .ok (head, ⟨following, cursor.position.after head.text.toList⟩) := by
  obtain ⟨⟨left, position⟩, read, rfl⟩ := headWord_of_rest rest ends
  obtain ⟨own, moved⟩ := follows_of_headWord read
  have same : own = head.text.toList := List.append_cancel_right (moved.1.symm.trans rest)
  have place : position = cursor.position.after head.text.toList := same ▸ moved.2
  rw [read, place]

/-- A call with a text in which a backslash stands in front of a letter that it does not escape. -/
def sayUnescaped : List Char :=
  Keyword.block.text.toList ++ [' ', '"', '\\', 'q']

/-- Whatever follows, the text is refused behind that letter. -/
theorem parse_sayUnescaped (rest : List Char) :
    Script.parse (String.ofList (sayUnescaped ++ rest)) =
      .error ⟨⟨1, 7⟩, .unknownEscape 'q'⟩ := by
  let start := Cursor.ofText (sayUnescaped ++ rest)
  let steps := 4 * (rest.length + 6) + 4
  have head := @headWord_eq start Keyword.block (' ' :: '"' :: '\\' :: 'q' :: rest) rfl
    (by rintro c ⟨⟩; rfl)
  have call : command (steps + 3) false start = .error ⟨⟨1, 7⟩, .unknownEscape 'q'⟩ := by
    have begun : command (steps + 3) false start = headWord start >>= fun read =>
        arguments (steps + 2) false read.2 >>= fun found =>
          .ok (.mk read.1 found.1, found.2) := rfl
    rw [begun, head]
    rfl
  have begun : parse (sayUnescaped ++ rest) =
      (command (steps + 3) false start >>= fun read => afterCommand false read.1 read.2 >>= fun _ =>
        commands (steps + 3) false read.2 >>= fun found =>
          .ok (read.1 :: found.1, found.2)).map Prod.fst := rfl
  rw [Script.parse, String.toList_ofList, begun, call]
  rfl

/-- The error in a bad escape stands behind the character that is wrong. -/
theorem locates_sayUnescaped :
    Script.parse (String.ofList sayUnescaped) = .error ⟨⟨1, 7⟩, .unknownEscape 'q'⟩ ∧
      ∃ front back,
        Locates (String.ofList sayUnescaped) ⟨⟨1, 7⟩, .unknownEscape 'q'⟩ front back := by
  have refused := parse_sayUnescaped []
  rw [List.append_nil] at refused
  exact ⟨refused, locates_of_parse refused⟩

/-- The only place in the text with the position of the error lies behind the letter, and with the
letter the text is not what a program begins with. -/
theorem sayUnescaped_overshoots :
    Script.parse (String.ofList sayUnescaped) = .error ⟨⟨1, 7⟩, .unknownEscape 'q'⟩ ∧
      ∀ count, Position.start.after (sayUnescaped.take count) = ⟨1, 7⟩ →
        ∀ rest script,
          Script.parse (String.ofList (sayUnescaped.take count ++ rest)) ≠ .ok script := by
  refine ⟨parse_sayUnescaped [], fun count place rest script read => ?_⟩
  have long : sayUnescaped.length ≤ count := by
    by_contra short
    have early : ∀ count < sayUnescaped.length,
        Position.start.after (sayUnescaped.take count) ≠ ⟨1, 7⟩ := by decide
    exact early count (by omega) place
  rw [List.take_of_length_le long, parse_sayUnescaped rest] at read
  cases read

end CommandScript.Source
