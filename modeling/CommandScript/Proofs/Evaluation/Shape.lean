import CommandScript.Evaluation.Form
import Mathlib.Data.List.Forall2

/-!
# The shapes of built-in commands

The forms that arguments are taken apart by, told as a grammar. A selection is of its shape only if
every clause is, and a list of modules only if every entry is.
-/

namespace CommandScript.Evaluation

open CommandScript.Source

/-- Where an item is read exactly if it is of a shape, a list is read exactly if all its items are
of that shape. -/
theorem mapM_eq_some_iff {α β : Type} {parse : α → Option β} {shape : α → β → Prop}
    (reads : ∀ {item result}, parse item = some result ↔ shape item result) {items : List α}
    {results : List β} : items.mapM parse = some results ↔ List.Forall₂ shape items results := by
  induction items generalizing results with
  | nil => simp [eq_comm]
  | cons item rest ih =>
      rw [List.mapM_cons, List.forall₂_cons_left_iff]
      simp only [Option.bind_eq_bind, Option.bind_eq_some_iff, ih, reads]
      constructor
      · rintro ⟨first, found, others, all, ⟨⟩⟩
        exact ⟨first, others, found, all, rfl⟩
      · rintro ⟨first, others, found, all, rfl⟩
        exact ⟨first, found, others, all, rfl⟩

/-! ## Clauses, entries and parameters -/

/-- A command that is a clause of a selection. -/
inductive IsClause : Command → Clause → Prop where
  | case {head : Symbol} (word : head.text = "case") (condition body : Script) :
    IsClause (.mk head [.script condition, .script body]) ⟨some condition, body⟩
  | otherwise {head : Symbol} (word : head.text = "else") (body : Script) :
    IsClause (.mk head [.script body]) ⟨none, body⟩

/-- The reading of a clause accepts just the proper ones. -/
theorem clause?_eq_some_iff {command : Command} {clause : Clause} :
    clause? command = some clause ↔ IsClause command clause := by
  constructor
  · intro found
    obtain ⟨head, args⟩ := command
    rw [clause?] at found
    split at found
    · rename_i word args
      cases found
      cases args
      exact .case word _ _
    · rename_i word args
      cases found
      cases args
      exact .otherwise word _
    · cases found
  · rintro (⟨word, condition, body⟩ | ⟨word, body⟩)
    · simp [clause?, Command.head, Command.args, word]
    · simp [clause?, Command.head, Command.args, word]

/-- An argument that is an entry of a list of modules. -/
inductive IsEntry : Argument → String × Symbol → Prop where
  | pair (path : String) (name : Symbol) : IsEntry (.list [.text path, .symbol name]) (path, name)

/-- The reading of an entry accepts just the proper ones. -/
theorem entry?_eq_some_iff {arg : Argument} {entry : String × Symbol} :
    entry? arg = some entry ↔ IsEntry arg entry := by
  constructor
  · intro found
    unfold entry? at found
    split at found
    · cases found
      exact .pair _ _
    · cases found
  · rintro ⟨path, name⟩
    rfl

/-- An argument that is a parameter of a function. -/
inductive IsParam : Argument → Symbol → Prop where
  | variable (name : Symbol) : IsParam (.variable name) name

/-- The reading of a parameter accepts just variables. -/
theorem param?_eq_some_iff {arg : Argument} {name : Symbol} :
    param? arg = some name ↔ IsParam arg name := by
  constructor
  · intro found
    rw [param?.eq_def] at found
    split at found
    · cases found
      exact .variable _
    · cases found
  · rintro ⟨name⟩
    rfl

/-! ## Built-in commands -/

/-- The arguments of a built-in command that are of its shape, taken apart. -/
inductive Shaped : Builtin → List Argument → Form → Prop where
  | define (name : Symbol) (value : Argument) :
    Shaped .define [.variable name, value] (.define name value)
  | choose (condition : Argument) (consequence : Script) :
    Shaped .choose [condition, .script consequence] (.choose condition consequence none)
  | chooseElse {word : Symbol} (is : word.text = "else") (condition : Argument)
    (consequence alternative : Script) :
    Shaped .choose [condition, .script consequence, .symbol word, .script alternative]
      (.choose condition consequence (some alternative))
  | select {commands : Script} {clauses : List Clause}
    (each : List.Forall₂ IsClause commands clauses) :
    Shaped .select [.script commands] (.select clauses)
  | guard (condition body : Script) :
    Shaped .guard [.script condition, .script body] (.guard condition body)
  | loop {start stop : Symbol} (starts : start.text = "from") (stops : stop.text = "to")
    (counter : Symbol) (first last : Argument) (body : Script) :
    Shaped .loop [.symbol counter, .symbol start, first, .symbol stop, last, .script body]
      (.loop counter first last body)
  | function (name : Symbol) (params : List Argument) (body : Script) :
    Shaped .function [.symbol name, .list params, .script body] (.function name params body)
  | load {args : List Argument} {entries : List (String × Symbol)}
    (each : List.Forall₂ IsEntry args entries) : Shaped .load [.list args] (.load entries)
  | printOut (args : List Argument) : Shaped .printOut args (.print Keyword.stdout args)
  | printErr (args : List Argument) : Shaped .printErr args (.print Keyword.stderr args)
  | block (body : Script) : Shaped .block [.script body] (.block body)
  | yes (args : List Argument) : Shaped .yes args (.truth true)
  | no (args : List Argument) : Shaped .no args (.truth false)

/-- The reading of `if` accepts just the proper forms. -/
theorem chooseForm?_eq_some_iff {args : List Argument} {form : Form} :
    chooseForm? args = some form ↔ Shaped .choose args form := by
  constructor
  · intro found
    rw [chooseForm?.eq_def] at found
    split at found
    · cases found
      exact .choose _ _
    · split at found
      · rename_i word
        cases found
        exact .chooseElse word _ _ _
      · cases found
    · cases found
  · intro shaped
    cases shaped with
    | choose condition consequence => rfl
    | chooseElse is condition consequence alternative => exact if_pos is

/-- The reading of `loop` accepts just the proper forms. -/
theorem loopForm?_eq_some_iff {args : List Argument} {form : Form} :
    loopForm? args = some form ↔ Shaped .loop args form := by
  constructor
  · intro found
    rw [loopForm?.eq_def] at found
    split at found
    · split at found
      · rename_i words
        cases found
        exact .loop words.1 words.2 _ _ _ _
      · cases found
    · cases found
  · intro shaped
    cases shaped with
    | loop starts stops counter first last body => exact if_pos ⟨starts, stops⟩

/-- Arguments are taken apart exactly if they are of the shape of the command. -/
theorem Form.ofArguments?_eq_some_iff {builtin : Builtin} {args : List Argument} {form : Form} :
    Form.ofArguments? builtin args = some form ↔ Shaped builtin args form := by
  constructor
  · intro found
    rw [Form.ofArguments?.eq_def] at found
    split at found
    case h_1 => cases found; exact .define _ _
    case h_2 => exact chooseForm?_eq_some_iff.mp found
    case h_3 =>
      obtain ⟨clauses, taken, rfl⟩ := Option.map_eq_some_iff.mp found
      exact .select ((mapM_eq_some_iff clause?_eq_some_iff).mp taken)
    case h_4 => cases found; exact .guard _ _
    case h_5 => exact loopForm?_eq_some_iff.mp found
    case h_6 => cases found; exact .function _ _ _
    case h_7 =>
      obtain ⟨entries, taken, rfl⟩ := Option.map_eq_some_iff.mp found
      exact .load ((mapM_eq_some_iff entry?_eq_some_iff).mp taken)
    case h_8 => cases found; exact .printOut _
    case h_9 => cases found; exact .printErr _
    case h_10 => cases found; exact .block _
    case h_11 => cases found; exact .yes _
    case h_12 => cases found; exact .no _
    case h_13 => cases found
  · intro shaped
    cases shaped with
    | choose condition consequence => exact chooseForm?_eq_some_iff.mpr (.choose ..)
    | chooseElse is => exact chooseForm?_eq_some_iff.mpr (.chooseElse is ..)
    | select each =>
        have taken := (mapM_eq_some_iff clause?_eq_some_iff).mpr each
        rw [Form.ofArguments?, taken]
        rfl
    | loop starts stops => exact loopForm?_eq_some_iff.mpr (.loop starts stops ..)
    | load each =>
        have taken := (mapM_eq_some_iff entry?_eq_some_iff).mpr each
        rw [Form.ofArguments?, taken]
        rfl
    | _ => rfl

/-- Arguments are not taken apart exactly if they are not of the shape of the command. -/
theorem Form.ofArguments?_eq_none_iff {builtin : Builtin} {args : List Argument} :
    Form.ofArguments? builtin args = none ↔ ∀ form, ¬Shaped builtin args form := by
  rw [Option.eq_none_iff_forall_ne_some]
  exact forall_congr' fun form => not_congr Form.ofArguments?_eq_some_iff

/-! ## Parts that are not in order -/

/-- One item out of order, behind whatever others, and the list is. -/
theorem not_forall₂_of_mem {α β : Type} {shape : α → β → Prop} {items : List α} {results : List β}
    {bad : α} (member : bad ∈ items) (malformed : ∀ result, ¬shape bad result) :
    ¬List.Forall₂ shape items results := by
  intro each
  induction each with
  | nil => cases member
  | cons first _ ih =>
      rcases List.mem_cons.mp member with rfl | later
      · exact malformed _ first
      · exact ih later

/-- A list with an item out of order is not read. -/
theorem mapM_eq_none_of_mem {α β : Type} {parse : α → Option β} {shape : α → β → Prop}
    (reads : ∀ {item result}, parse item = some result ↔ shape item result) {items : List α}
    {bad : α} (member : bad ∈ items) (malformed : ∀ result, ¬shape bad result) :
    items.mapM parse = none := by
  rw [Option.eq_none_iff_forall_ne_some]
  intro results taken
  exact not_forall₂_of_mem member malformed ((mapM_eq_some_iff reads).mp taken)

/-- A selection with a clause out of order is not of its shape. -/
theorem not_shaped_select {commands : Script} {bad : Command} (member : bad ∈ commands)
    (malformed : ∀ clause, ¬IsClause bad clause) (form : Form) :
    ¬Shaped .select [.script commands] form := by
  intro shaped
  cases shaped with
  | select each => exact not_forall₂_of_mem member malformed each

/-- A list of modules with an entry out of order is not of its shape. -/
theorem not_shaped_load {args : List Argument} {bad : Argument} (member : bad ∈ args)
    (malformed : ∀ entry, ¬IsEntry bad entry) (form : Form) :
    ¬Shaped .load [.list args] form := by
  intro shaped
  cases shaped with
  | load each => exact not_forall₂_of_mem member malformed each

end CommandScript.Evaluation
