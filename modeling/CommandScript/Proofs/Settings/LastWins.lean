import CommandScript.Proofs.Settings.Line

/-!
# The last valid assignment of a setting counts

A configuration text is read line by line. Each valid assignment changes what one setting holds, and
no other line changes anything. So a setting holds what the last assignment to it says, or its
default if there is none. The refused lines, and they alone, are reported with their numbers.
-/

namespace CommandScript

open CommandScript.Text

/-! ## What the settings hold -/

/-- What the settings hold for one of them, told as the assignment that sets it so. -/
def Settings.held (settings : Settings) : Setting → Assignment
  | .capacity channel => .capacity channel (settings.channels channel).capacity
  | .policy channel => .policy channel (settings.channels channel).policy
  | .requests => .requests settings.requests

/-- Settings that hold the same for every setting are the same. -/
theorem Settings.ext_held {first second : Settings}
    (same : ∀ setting, first.held setting = second.held setting) : first = second := by
  obtain ⟨channels, requests⟩ := first
  obtain ⟨others, depth⟩ := second
  have channel : channels = others := by
    funext channel
    have capacity := same (.capacity channel)
    have policy := same (.policy channel)
    rw [Settings.held, Settings.held, Assignment.capacity.injEq] at capacity
    rw [Settings.held, Settings.held, Assignment.policy.injEq] at policy
    calc channels channel = ⟨(channels channel).capacity, (channels channel).policy⟩ := rfl
      _ = ⟨(others channel).capacity, (others channel).policy⟩ := by rw [capacity.2, policy.2]
  have depths : Assignment.requests requests = .requests depth := same .requests
  rw [channel, Assignment.requests.inj depths]

/-- An assignment changes one setting. -/
theorem Settings.held_assign (settings : Settings) (assignment : Assignment) (setting : Setting) :
    (settings.assign assignment).held setting =
      if setting = assignment.setting then assignment else settings.held setting := by
  cases assignment with
  | requests value => cases setting <;> simp [held, assign, Assignment.setting]
  | capacity channel value =>
      cases setting with
      | requests => simp [held, assign, Assignment.setting, update]
      | capacity other | policy other =>
          by_cases same : other = channel <;>
            simp [held, assign, Assignment.setting, update, same]
  | policy channel value =>
      cases setting with
      | requests => simp [held, assign, Assignment.setting, update]
      | capacity other | policy other =>
          by_cases same : other = channel <;>
            simp [held, assign, Assignment.setting, update, same]

/-- Assignments to different settings may be exchanged. -/
theorem Settings.assign_comm (settings : Settings) {first second : Assignment}
    (apart : first.setting ≠ second.setting) :
    (settings.assign first).assign second = (settings.assign second).assign first := by
  refine Settings.ext_held fun setting => ?_
  simp only [held_assign]
  by_cases isSecond : setting = second.setting
  · rw [if_pos isSecond, if_neg fun isFirst => apart (isFirst.symm.trans isSecond), if_pos isSecond]
  · rw [if_neg isSecond, if_neg isSecond]

/-! ## Reading line by line -/

namespace Settings

variable {settings : Settings} {number : Nat} {row : List Char} {rows : List (List Char)}
  {assignment : Assignment}

/-- A silent line is passed over. -/
theorem readLines_of_silent (silent : readLine row = .ok none) :
    settings.readLines number (row :: rows) = settings.readLines (number + 1) rows := by
  rw [readLines, silent]

/-- A line that assigns does so before the later ones. -/
theorem readLines_of_assigns (assigns : readLine row = .ok (some assignment)) :
    settings.readLines number (row :: rows) =
      (settings.assign assignment).readLines (number + 1) rows := by
  rw [readLines, assigns]

/-- A line that is refused is reported with its number and then passed over. -/
theorem readLines_of_refused {fault : SettingsFault} (refused : readLine row = .error fault) :
    settings.readLines number (row :: rows) =
      ((settings.readLines (number + 1) rows).1,
        ⟨number, fault⟩ :: (settings.readLines (number + 1) rows).2) := by
  rw [readLines, refused]

/-- The later lines are read with what the earlier ones have set. -/
theorem readLines_append (settings : Settings) (number : Nat) (front back : List (List Char)) :
    settings.readLines number (front ++ back) =
      (((settings.readLines number front).1.readLines (number + front.length) back).1,
        (settings.readLines number front).2 ++
          ((settings.readLines number front).1.readLines (number + front.length) back).2) := by
  have count : ∀ number (row : List Char) rest,
      number + (row :: rest).length = number + 1 + rest.length := by
    intro number row rest
    rw [List.length_cons]
    omega
  induction settings, number, front using readLines.induct with
  | case1 settings number => rfl
  | case2 settings number row rest silent ih =>
      rw [count, List.cons_append, readLines_of_silent silent, readLines_of_silent silent, ih]
  | case3 settings number row rest assignment assigns ih =>
      rw [count, List.cons_append, readLines_of_assigns assigns, readLines_of_assigns assigns, ih]
  | case4 settings number row rest fault refused _ _ _ ih =>
      rw [count, List.cons_append, readLines_of_refused refused, readLines_of_refused refused, ih]
      rfl

/-- Lines that do not assign to a setting leave it. -/
theorem held_readLines {setting : Setting}
    (others : ∀ row ∈ rows, ∀ assignment, Assigns row assignment → assignment.setting ≠ setting) :
    (settings.readLines number rows).1.held setting = settings.held setting := by
  induction settings, number, rows using readLines.induct with
  | case1 settings number => rfl
  | case2 settings number row rest silent ih =>
      rw [readLines_of_silent silent]
      exact ih (List.forall_mem_cons.mp others).2
  | case3 settings number row rest assignment assigns ih =>
      obtain ⟨first, later⟩ := List.forall_mem_cons.mp others
      have apart := first assignment (readLine_eq_some_iff.mp assigns)
      rw [readLines_of_assigns assigns, ih later, held_assign, if_neg apart.symm]
  | case4 settings number row rest fault refused _ _ _ ih =>
      rw [readLines_of_refused refused]
      exact ih (List.forall_mem_cons.mp others).2

/-- An error tells the number of a line and why it is refused. -/
theorem mem_readLines_iff {error : SettingsError} :
    error ∈ (settings.readLines number rows).2 ↔
      ∃ index row, rows[index]? = some row ∧ error.line = number + index ∧
        readLine row = .error error.fault := by
  -- an index into the rows is that of the first one, or leads into the others
  have cons : ∀ {number : Nat} {first : List Char} {rest : List (List Char)},
      (∃ index row, (first :: rest)[index]? = some row ∧ error.line = number + index ∧
        readLine row = .error error.fault) ↔
      (error.line = number ∧ readLine first = .error error.fault) ∨
        ∃ index row, rest[index]? = some row ∧ error.line = number + 1 + index ∧
          readLine row = .error error.fault := by
    intro number first rest
    constructor
    · rintro ⟨_ | index, row, found, place, refused⟩
      · cases found
        exact .inl ⟨place, refused⟩
      · exact .inr ⟨index, row, found, by omega, refused⟩
    · rintro (⟨place, refused⟩ | ⟨index, row, found, place, refused⟩)
      · exact ⟨0, first, rfl, place, refused⟩
      · exact ⟨index + 1, row, found, by omega, refused⟩
  induction settings, number, rows using readLines.induct with
  | case1 settings number => simp [readLines]
  | case2 settings number row rest silent ih =>
      rw [readLines_of_silent silent, cons, silent]
      exact ih.trans (by simp)
  | case3 settings number row rest assignment assigns ih =>
      rw [readLines_of_assigns assigns, cons, assigns]
      exact ih.trans (by simp)
  | case4 settings number row rest fault refused _ _ _ ih =>
      rw [readLines_of_refused refused, List.mem_cons, cons, refused]
      refine or_congr ?_ ih
      obtain ⟨line, told⟩ := error
      simp [eq_comm]

/-- The numbers in the errors go up. -/
theorem pairwise_readLines (settings : Settings) (number : Nat) (rows : List (List Char)) :
    (settings.readLines number rows).2.Pairwise fun error later => error.line < later.line := by
  induction settings, number, rows using readLines.induct with
  | case1 settings number => exact .nil
  | case2 settings number row rest silent ih => rwa [readLines_of_silent silent]
  | case3 settings number row rest assignment assigns ih => rwa [readLines_of_assigns assigns]
  | case4 settings number row rest fault refused _ _ _ ih =>
      rw [readLines_of_refused refused]
      refine .cons (fun later member => ?_) ih
      obtain ⟨index, other, -, place, -⟩ := mem_readLines_iff.mp member
      dsimp only
      omega

/-! ## The assignments alone -/

/-- Without the other lines the assignments set the same, whatever the lines are counted from. -/
theorem readLines_filter (settings : Settings) (number other : Nat) (rows : List (List Char)) :
    settings.readLines other (rows.filter fun row => IsAssignment row) =
      ((settings.readLines number rows).1, []) := by
  induction settings, number, rows using readLines.induct generalizing other with
  | case1 settings number => rfl
  | case2 settings number row rest silent ih =>
      have drops : ¬ IsAssignment row := by simp [isAssignment_iff, silent]
      rw [List.filter_cons_of_neg (by simpa using drops), readLines_of_silent silent, ih]
  | case3 settings number row rest assignment assigns ih =>
      have keeps : IsAssignment row := isAssignment_iff.mpr ⟨assignment, assigns⟩
      rw [List.filter_cons_of_pos (by simpa using keeps), readLines_of_assigns assigns,
        readLines_of_assigns assigns, ih]
  | case4 settings number row rest fault refused _ _ _ ih =>
      have drops : ¬ IsAssignment row := by simp [isAssignment_iff, refused]
      rw [List.filter_cons_of_neg (by simpa using drops), readLines_of_refused refused, ih]

/-! ## Bounds -/

/-- Everything that is held is bounded. -/
def IsBounded (settings : Settings) : Prop :=
  ∀ setting, (settings.held setting).IsBounded

/-- The defaults keep within the bounds. -/
theorem isBounded_default : Settings.default.IsBounded := by
  intro setting
  cases setting with
  | capacity channel =>
      change 1 ≤ 100 ∧ 100 < settingBound
      decide
  | policy channel => trivial
  | requests =>
      change 1 ≤ 64 ∧ 64 < settingBound
      decide

theorem IsBounded.assign (bounded : settings.IsBounded) (fits : assignment.IsBounded) :
    (settings.assign assignment).IsBounded := by
  intro setting
  rw [held_assign]
  by_cases assigned : setting = assignment.setting
  · rw [if_pos assigned]
    exact fits
  · rw [if_neg assigned]
    exact bounded setting

/-- Whatever lines are read, the settings stay within the bounds. -/
theorem IsBounded.readLines (bounded : settings.IsBounded) :
    (settings.readLines number rows).1.IsBounded := by
  induction settings, number, rows using readLines.induct with
  | case1 settings number => exact bounded
  | case2 settings number row rest silent ih =>
      rw [readLines_of_silent silent]
      exact ih bounded
  | case3 settings number row rest assignment assigns ih =>
      rw [readLines_of_assigns assigns]
      exact ih (bounded.assign (readLine_eq_some_iff.mp assigns).isBounded)
  | case4 settings number row rest fault refused _ _ _ ih =>
      rw [readLines_of_refused refused]
      exact ih bounded

/-! ## Whole texts -/

/-- A text that is put together from lines is read as these lines. -/
theorem ofText_unlines {rows : List (List Char)} (apart : ∀ row ∈ rows, '\n' ∉ row) :
    Settings.ofText (String.ofList (unlines rows)) = Settings.default.readLines 1 rows := by
  rw [ofText, String.toList_ofList]
  by_cases none : rows = []
  · rw [none]
    exact readLines_of_silent (readLine_eq_none_iff.mpr (.inl (List.forall_mem_nil _)))
  · rw [lines_unlines apart none]

end Settings

/-- The last valid assignment in a text counts for each setting, and all that is neither blank nor a
comment nor a valid assignment is reported. -/
structure LastWins (text : String) : Prop where
  /-- An assignment counts if no later line assigns to the same setting. -/
  last : ∀ front row back assignment, lines text.toList = front ++ row :: back →
    Assigns row assignment →
    (∀ later ∈ back, ∀ other, Assigns later other → other.setting ≠ assignment.setting) →
    (Settings.ofText text).1.held assignment.setting = assignment
  /-- A setting to which no line assigns keeps its default. -/
  unset : ∀ setting, (∀ row ∈ lines text.toList, ∀ assignment, Assigns row assignment →
      assignment.setting ≠ setting) →
    (Settings.ofText text).1.held setting = Settings.default.held setting
  /-- The errors tell the numbers of the refused lines, counted from one. -/
  reported : ∀ number, (∃ error ∈ (Settings.ofText text).2, error.line = number) ↔
    ∃ index row, number = index + 1 ∧ (lines text.toList)[index]? = some row ∧ IsRefused row
  /-- The errors are in the order of the lines, and no line is reported twice. -/
  increasing : (Settings.ofText text).2.Pairwise fun error later => error.line < later.line
  /-- The assignments alone set the same, and give no error. -/
  deleting : Settings.ofText (String.ofList
      (unlines ((lines text.toList).filter fun row => IsAssignment row))) =
    ((Settings.ofText text).1, [])
  /-- Adjacent assignments to different settings may be exchanged. -/
  exchanging : ∀ front one other back first second,
    lines text.toList = front ++ one :: other :: back → Assigns one first →
    Assigns other second → first.setting ≠ second.setting →
    Settings.ofText (String.ofList (unlines (front ++ other :: one :: back))) =
      Settings.ofText text
  /-- A capacity is at least one and fits into a machine word. -/
  capacity : ∀ channel, 1 ≤ ((Settings.ofText text).1.channels channel).capacity ∧
    ((Settings.ofText text).1.channels channel).capacity < Nat.pow 2 64
  /-- So does the depth of the request queues. -/
  requests : 1 ≤ (Settings.ofText text).1.requests ∧
    (Settings.ofText text).1.requests < Nat.pow 2 64

/-- Of all lines that assign a setting the last one counts, whatever stands in the others. -/
theorem ofText_lastWins (text : String) : LastWins text where
  last front row back assignment shape assigns others := by
    rw [Settings.ofText, shape, Settings.readLines_append,
      Settings.readLines_of_assigns (readLine_eq_some_iff.mpr assigns)]
    dsimp only
    rw [Settings.held_readLines others, Settings.held_assign, if_pos rfl]
  unset setting others := Settings.held_readLines others
  reported number := by
    constructor
    · rintro ⟨error, member, rfl⟩
      obtain ⟨index, row, found, place, refused⟩ := Settings.mem_readLines_iff.mp member
      exact ⟨index, row, by omega, found, isRefused_iff.mpr ⟨_, refused⟩⟩
    · rintro ⟨index, row, rfl, found, refused⟩
      obtain ⟨fault, told⟩ := isRefused_iff.mp refused
      exact ⟨⟨index + 1, fault⟩,
        Settings.mem_readLines_iff.mpr ⟨index, row, found, Nat.add_comm .., told⟩, rfl⟩
  increasing := Settings.pairwise_readLines ..
  deleting := by
    have apart : ∀ row ∈ (lines text.toList).filter fun row => IsAssignment row, '\n' ∉ row :=
      fun row member => not_mem_of_mem_lines (List.mem_filter.mp member).1
    rw [Settings.ofText_unlines apart]
    exact Settings.readLines_filter ..
  exchanging front one other back first second shape assignsOne assignsOther apart := by
    have rowsApart : ∀ row ∈ front ++ other :: one :: back, '\n' ∉ row := by
      intro row member
      have among : row ∈ lines text.toList := by
        rw [shape]
        simp only [List.mem_append, List.mem_cons] at member ⊢
        tauto
      exact not_mem_of_mem_lines among
    have readOne := readLine_eq_some_iff.mpr assignsOne
    have readOther := readLine_eq_some_iff.mpr assignsOther
    rw [Settings.ofText_unlines rowsApart, Settings.ofText, shape]
    simp only [Settings.readLines_append, Settings.readLines_of_assigns readOne,
      Settings.readLines_of_assigns readOther, Settings.assign_comm _ apart]
  capacity channel := Settings.isBounded_default.readLines (.capacity channel)
  requests := Settings.isBounded_default.readLines .requests

end CommandScript
