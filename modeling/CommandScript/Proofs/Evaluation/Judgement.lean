import CommandScript.Proofs.Evaluation.Calls
import CommandScript.Proofs.Evaluation.Services

/-!
# One pass over evaluation

Evaluation is put together from few steps: blocks are made, names are bound and looked up, processes
are called, functions are defined, and bodies, modules and requests are left to others. A judgement
relates computations, of one host or of two. If it holds of the steps, and of what is put together
from computations that it holds of, then it holds of every part of evaluation and of evaluation as a
whole. This is the only place that goes through the evaluator case by case.

A judgement may know something of the stage that a run has reached, such as which scopes there are,
and may restrict which places, values and modules are dealt with and which part of the language is
used.
-/

namespace CommandScript.Evaluation

open CommandScript.Machine CommandScript.Source

/-! ## Parts of the language -/

/-- The parts that a built-in command is taken apart into are within a part of the language. -/
def Form.Within (argument : Argument → Prop) (script : Script → Prop) (defining loading : Prop) :
    Form → Prop
  | .define _ value => argument value
  | .choose condition consequence alternative =>
    argument condition ∧ script consequence ∧ ∀ other ∈ alternative, script other
  | .select clauses =>
    ∀ clause ∈ clauses, (∀ condition ∈ clause.condition, script condition) ∧ script clause.body
  | .guard condition body => script condition ∧ script body
  | .loop _ first last body => argument first ∧ argument last ∧ script body
  | .function _ _ _ => defining
  | .load _ => loading
  | .print _ args => ∀ arg ∈ args, argument arg
  | .block body => script body
  | .truth _ => True

/-- A part of the language, with all that a command or an argument in it is evaluated by. -/
structure Fragment where
  argument : Argument → Prop
  command : Command → Prop
  /-- The scripts inside a command. -/
  script : Script → Prop
  /-- Whether functions may be defined. -/
  defining : Prop
  /-- Whether modules may be loaded. -/
  loading : Prop
  script_of_argument : ∀ {commands : Script}, argument (.script commands) → script commands
  items_of_argument : ∀ {items : List Argument}, argument (.list items) →
    ∀ item ∈ items, argument item
  args_of_command : ∀ {given : Command}, command given → ∀ arg ∈ given.args, argument arg
  form_of_command : ∀ {given : Command} {builtin : Builtin} {form : Form}, command given →
    Builtin.ofName? given.head.text = some builtin →
    Form.ofArguments? builtin given.args = some form →
    form.Within argument script defining loading

/-- The whole language. -/
def Fragment.whole : Fragment where
  argument _ := True
  command _ := True
  script _ := True
  defining := True
  loading := True
  script_of_argument _ := trivial
  items_of_argument _ _ _ := trivial
  args_of_command _ _ _ := trivial
  form_of_command {_ _ form} _ _ _ := by cases form <;> simp [Form.Within]

/-! ## Judgements -/

/-- A relation between computations from a stage on. Where both end with a value it has a property
at the stage that is reached by then, and what goes on with it may rely on that. -/
structure Conduct (Host Other : Type) where
  Stage : Type
  later : Stage → Stage → Prop
  rel : ∀ {α : Type}, Stage → (Stage → α → Prop) → Eval Host α → Eval Other α → Prop
  pure : ∀ {α : Type} {start : Stage} {ok : Stage → α → Prop} {value : α},
    (∀ stage, later start stage → ok stage value) →
    rel start ok (Eval.pure value) (Eval.pure value)
  fail : ∀ {α : Type} {start : Stage} {ok : Stage → α → Prop} (error : EvalError),
    rel start ok (Eval.fail error) (Eval.fail error)
  bind : ∀ {α β : Type} {start : Stage} {ok : Stage → α → Prop} {fine : Stage → β → Prop}
    {first : Eval Host α} {other : Eval Other α} {next : α → Eval Host β} {rest : α → Eval Other β},
    rel start ok first other →
    (∀ value stage, later start stage → ok stage value →
      rel stage fine (next value) (rest value)) →
    rel start fine (first >>= next) (other >>= rest)
  mapError : ∀ {α : Type} {start : Stage} {ok : Stage → α → Prop} {computation : Eval Host α}
    {other : Eval Other α}, rel start ok computation other → ∀ tell : EvalError → EvalError,
    rel start ok (computation.mapError tell) (other.mapError tell)

namespace Conduct

variable {Host Other α : Type} (conduct : Conduct Host Other) {start : conduct.Stage}
  {ok : conduct.Stage → α → Prop}

theorem ofExcept {result : Except EvalError α}
    (good : ∀ value, result = .ok value → ∀ stage, conduct.later start stage → ok stage value) :
    conduct.rel start ok (Eval.ofExcept result) (Eval.ofExcept result) := by
  cases result with
  | ok value => exact conduct.pure (good value rfl)
  | error error => exact conduct.fail error

theorem ofOption {found : Option α}
    (good : ∀ value ∈ found, ∀ stage, conduct.later start stage → ok stage value)
    (error : EvalError) :
    conduct.rel start ok (Eval.ofOption found error) (Eval.ofOption found error) := by
  cases found with
  | some value => exact conduct.pure (good value rfl)
  | none => exact conduct.fail error

/-- A number or a truth leads nowhere, so nothing has to be known of it. -/
theorem ofExcept_any (result : Except EvalError α) :
    conduct.rel start (fun _ _ => True) (Eval.ofExcept result) (Eval.ofExcept result) :=
  conduct.ofExcept fun _ _ _ _ => trivial

theorem ofOption_any (found : Option α) (error : EvalError) :
    conduct.rel start (fun _ _ => True) (Eval.ofOption found error) (Eval.ofOption found error) :=
  conduct.ofOption (fun _ _ _ _ => trivial) error

theorem require (condition : Bool) (error : EvalError) :
    conduct.rel start (fun _ _ => True) (Eval.require condition error)
      (Eval.require condition error) := by
  cases condition with
  | true => exact conduct.pure fun _ _ => trivial
  | false => exact conduct.fail error

end Conduct

/-- A conduct that the steps of evaluation keep to, with the places, modules and values that it is
kept to for. -/
structure Judgement (Host Other : Type) extends Conduct Host Other where
  fragment : Fragment
  /-- Arguments may be evaluated at the place. -/
  place : Stage → Place → Prop
  /-- Scripts may be evaluated there, which bind names in the scope of the place. -/
  home : Stage → Place → Prop
  /-- The scope has been made for a block below the place. -/
  below : Stage → Place → ScopeId → Prop
  module : Stage → ModuleId → Prop
  value : Stage → Value → Prop
  /-- What a value is encoded to. -/
  encoded : Argument → Prop
  list : Sequence Argument → Prop
  home_of_below : ∀ {stage spot scope}, place stage spot → below stage spot scope →
    home stage { spot with scope := scope } := by intros; trivial
  place_of_home : ∀ {stage spot}, home stage spot → place stage spot := by intros; trivial
  module_of_place : ∀ {stage spot}, place stage spot → module stage spot.module := by
    intros; trivial
  module_of_value : ∀ {stage id path}, value stage (.module id path) → module stage id := by
    intros; trivial
  place_onward : ∀ {start stage spot}, place start spot → later start stage → place stage spot := by
    intros; trivial
  home_onward : ∀ {start stage spot}, home start spot → later start stage → home stage spot := by
    intros; trivial
  module_onward : ∀ {start stage id}, module start id → later start stage → module stage id := by
    intros; trivial
  value_onward : ∀ {start stage given}, value start given → later start stage →
    value stage given := by intros; trivial
  value_symbol : ∀ stage symbol, value stage (.symbol symbol) := by intros; trivial
  value_number : ∀ stage number, value stage (.number number) := by intros; trivial
  value_text : ∀ stage text, value stage (.text text) := by intros; trivial
  value_nothing : ∀ stage, value stage .nothing := by intros; trivial
  value_list : ∀ {stage items}, list items → value stage (.list items) := by intros; trivial
  encode : ∀ {stage given arg}, value stage given → given.encode = .ok arg → encoded arg := by
    intros; trivial
  list_ofList : ∀ {items : List Argument}, (∀ item ∈ items, encoded item) →
    list (Sequence.ofList items) := by intros; trivial
  list_push : ∀ {items item}, list items → encoded item → list (items.push item) := by
    intros; trivial
  newBlock : ∀ {start spot}, place start spot →
    rel start (fun stage => below stage spot) (newBlock spot.scope) (newBlock spot.scope)
  assign : ∀ {start spot scope} (name : Symbol) {given}, below start spot scope →
    value start given →
    rel start (fun _ _ => True) (assign scope name given) (assign scope name given)
  bindFresh : ∀ {start spot} (name : Symbol) {given} (error : EvalError), home start spot →
    value start given →
    rel start (fun _ _ => True) (bindFresh spot.scope name given error)
      (bindFresh spot.scope name given error)
  isFree : ∀ {start spot} (name : Symbol), place start spot →
    rel start (fun _ _ => True) (Eval.read fun machine => machine.scopes.isFree spot.scope name)
      (Eval.read fun machine => machine.scopes.isFree spot.scope name)
  lookup : ∀ {start spot} (name : Symbol), place start spot →
    rel start (fun stage found => ∀ given ∈ found, value stage given)
      (Eval.read fun machine => machine.scopes.lookup spot.scope name)
      (Eval.read fun machine => machine.scopes.lookup spot.scope name)
  hasLoader : ∀ {start}, rel start (fun _ _ => True)
    (Eval.read fun machine => machine.loader.isSome)
    (Eval.read fun machine => machine.loader.isSome)
  function? : ∀ {start id} (name : Symbol), module start id →
    rel start (fun stage found => ∀ function ∈ found, value stage (.function function))
      (Eval.read fun machine => machine.function? id name)
      (Eval.read fun machine => machine.function? id name)
  callProcess : ∀ {start id name} {values : List Value}, value start (.process id name) →
    (∀ given ∈ values, value start given) →
    rel start value (callProcess id name values) (callProcess id name values)
  runFunction : ∀ {start} {frame : Frame} (name : Symbol) (params : List Argument) (body : Script),
    fragment.defining → place start frame.caller →
    rel start value (runFunction frame name params body) (runFunction frame name params body)

namespace Judgement

variable {Host Other : Type}

/-- Two evaluators of the scripts inside commands. -/
def Evaluators (judgement : Judgement Host Other) (evaluate : Evaluator Host)
    (other : Evaluator Other) : Prop :=
  ∀ start script place, judgement.fragment.script script → judgement.home start place →
    judgement.rel start judgement.value (evaluate script place) (other script place)

/-- Two callers of functions. -/
def Callers (judgement : Judgement Host Other)
    (call : Function → List Value → ModuleId → Eval Host Value)
    (rival : Function → List Value → ModuleId → Eval Other Value) : Prop :=
  ∀ start function values fallback, judgement.value start (.function function) →
    (∀ given ∈ values, judgement.value start given) → judgement.module start fallback →
    judgement.rel start judgement.value (call function values fallback)
      (rival function values fallback)

/-- Two ways to load the module of a path. -/
def Loaders (judgement : Judgement Host Other) (load : String → Eval Host ModuleId)
    (rival : String → Eval Other ModuleId) : Prop :=
  ∀ start path, judgement.rel start (fun stage id => judgement.value stage (.module id path))
    (load path) (rival path)

/-- Two ways to print a line on a mailbox. -/
def Printers (judgement : Judgement Host Other) (push : MailboxId → Value → Eval Host Value)
    (rival : MailboxId → Value → Eval Other Value) : Prop :=
  ∀ start mailbox text, judgement.rel start judgement.value (push mailbox (.text text))
    (rival mailbox (.text text))

/-- A command may be evaluated in the frame. -/
structure Frame (judgement : Judgement Host Other) (start : judgement.Stage)
    (frame : Evaluation.Frame) : Prop where
  caller : judgement.home start frame.caller
  inside : judgement.place start frame.inside

variable {judgement : Judgement Host Other} {start stage : judgement.Stage}

/-- A frame stays allowed at later stages. -/
theorem Frame.onward {frame : Evaluation.Frame} (allowed : judgement.Frame start frame)
    (later : judgement.later start stage) : judgement.Frame stage frame :=
  ⟨judgement.home_onward allowed.caller later, judgement.place_onward allowed.inside later⟩

/-- The caller of an allowed frame is an allowed place. -/
theorem Frame.outside {frame : Evaluation.Frame} (allowed : judgement.Frame start frame) :
    judgement.place start frame.caller :=
  judgement.place_of_home allowed.caller

/-- The frame of a command is made below the place of the command. -/
theorem frame_of_below {place : Place} {context : ScopeId} (allowed : judgement.home start place)
    (below : judgement.below start place context) : judgement.Frame start ⟨place, context⟩ where
  caller := allowed
  inside := judgement.place_of_home
    (judgement.home_of_below (judgement.place_of_home allowed) below)

/-- Values stay good at later stages. -/
theorem values_onward {values : List Value} (good : ∀ given ∈ values, judgement.value start given)
    (later : judgement.later start stage) : ∀ given ∈ values, judgement.value stage given :=
  fun given member => judgement.value_onward (good given member) later

/-- A condition is a good value, since it is a symbol. -/
theorem value_ofBool (judgement : Judgement Host Other) (stage : judgement.Stage) (truth : Bool) :
    judgement.value stage (.ofBool truth) :=
  judgement.value_symbol stage _

/-- Both sides find a name free, or neither does. -/
theorem requireFree {place : Place} (name : Symbol) (error : EvalError)
    (allowed : judgement.place start place) :
    judgement.rel start (fun _ _ => True) (requireFree place.scope name error)
      (requireFree place.scope name error) :=
  judgement.bind (judgement.isFree name allowed) fun free _ _ _ => judgement.require free error

/-! ## Arguments -/

variable {evaluate : Evaluator Host} {other : Evaluator Other}

/-- A script may be evaluated in a block of its own. -/
theorem Evaluators.inBlock (scripts : judgement.Evaluators evaluate other) {script : Script}
    (fits : judgement.fragment.script script) {place : Place}
    (allowed : judgement.place start place) :
    judgement.rel start judgement.value (inBlock evaluate script place)
      (inBlock other script place) :=
  judgement.bind (judgement.newBlock allowed) fun _ _ later below =>
    scripts _ _ _ fits (judgement.home_of_below (judgement.place_onward allowed later) below)

mutual

/-- Arguments are judged by their constructors; only scripts evaluate anything. -/
theorem Evaluators.evalArgument (scripts : judgement.Evaluators evaluate other) {place : Place}
    {start : judgement.Stage} (allowed : judgement.place start place) :
    ∀ arg : Argument, judgement.fragment.argument arg →
      judgement.rel start judgement.value (evalArgument evaluate place arg)
        (evalArgument other place arg)
  | .symbol symbol, _ => by
      rw [Evaluation.evalArgument, Evaluation.evalArgument]
      exact judgement.pure fun stage _ => judgement.value_symbol stage symbol
  | .number number, _ => by
      rw [Evaluation.evalArgument, Evaluation.evalArgument]
      exact judgement.pure fun stage _ => judgement.value_number stage number
  | .text text, _ => by
      rw [Evaluation.evalArgument, Evaluation.evalArgument]
      exact judgement.pure fun stage _ => judgement.value_text stage text
  | .variable name, _ => by
      rw [Evaluation.evalArgument, Evaluation.evalArgument]
      refine judgement.bind (judgement.lookup name allowed) fun found stage _ good => ?_
      exact judgement.ofOption (fun given present _ later =>
        judgement.value_onward (good given present) later) _
  | .script commands, fits => by
      rw [Evaluation.evalArgument, Evaluation.evalArgument]
      exact scripts.inBlock (judgement.fragment.script_of_argument fits) allowed
  | .list items, fits => by
      rw [Evaluation.evalArgument, Evaluation.evalArgument]
      have each := judgement.fragment.items_of_argument fits
      refine judgement.bind (scripts.evalItems allowed items each) fun results _ _ known => ?_
      exact judgement.pure fun _ _ => judgement.value_list (judgement.list_ofList known)

/-- Items are judged one after the other. -/
theorem Evaluators.evalItems (scripts : judgement.Evaluators evaluate other) {place : Place}
    {start : judgement.Stage} (allowed : judgement.place start place) :
    ∀ items : List Argument, (∀ item ∈ items, judgement.fragment.argument item) →
      judgement.rel start (fun _ results => ∀ result ∈ results, judgement.encoded result)
        (evalItems evaluate place items) (evalItems other place items)
  | [], _ => by
      rw [Evaluation.evalItems, Evaluation.evalItems]
      exact judgement.pure fun _ _ => List.forall_mem_nil _
  | item :: rest, each => by
      rw [List.forall_mem_cons] at each
      rw [Evaluation.evalItems, Evaluation.evalItems]
      refine judgement.bind (scripts.evalArgument allowed item each.1)
        fun given stage later good => ?_
      refine judgement.bind (judgement.ofExcept fun _ told _ _ => judgement.encode good told)
        fun first final further known => ?_
      have here := judgement.place_onward (judgement.place_onward allowed later) further
      refine judgement.bind (scripts.evalItems here rest each.2) fun others _ _ all => ?_
      exact judgement.pure fun _ _ => List.forall_mem_cons.mpr ⟨known, all⟩

end

/-- Arguments are judged one after the other. -/
theorem Evaluators.evalAll (scripts : judgement.Evaluators evaluate other) {place : Place}
    (allowed : judgement.place start place) {args : List Argument}
    (each : ∀ arg ∈ args, judgement.fragment.argument arg) :
    judgement.rel start (fun stage values => ∀ given ∈ values, judgement.value stage given)
      (evalAll evaluate place args) (evalAll other place args) := by
  induction args generalizing start with
  | nil => exact judgement.pure fun _ _ => List.forall_mem_nil _
  | cons arg rest ih =>
      rw [List.forall_mem_cons] at each
      refine judgement.bind (scripts.evalArgument allowed arg each.1)
        fun first stage later good => ?_
      refine judgement.bind (ih (judgement.place_onward allowed later) each.2)
        fun others final further all => ?_
      refine judgement.pure fun last more => List.forall_mem_cons.mpr ⟨?_, ?_⟩
      · exact judgement.value_onward (judgement.value_onward good further) more
      · exact values_onward all more

namespace Evaluators

variable (scripts : judgement.Evaluators evaluate other)
include scripts

/-! ## Calls -/

section Calls

variable {call : Caller Host} {rival : Caller Other}
  (calls : judgement.Callers (call evaluate) (rival other))
include calls

/-- A function is invoked with arguments that are judged first. -/
theorem invokeBy {function : Function} {args : List Argument} {place : Place} {fallback : ModuleId}
    (closes : judgement.value start (.function function)) (allowed : judgement.place start place)
    (module : judgement.module start fallback)
    (each : ∀ arg ∈ args, judgement.fragment.argument arg) :
    judgement.rel start judgement.value (invokeBy call evaluate function args place fallback)
      (invokeBy rival other function args place fallback) := by
  refine judgement.bind (judgement.require _ _) fun _ stage later _ => ?_
  refine judgement.bind (scripts.evalAll (judgement.place_onward allowed later) each)
    fun values final further good => ?_
  refine calls _ _ _ _ ?_ good ?_
  · exact judgement.value_onward (judgement.value_onward closes later) further
  · exact judgement.module_onward (judgement.module_onward module later) further

/-- A function of a module is looked up and called. -/
theorem invokeFound {target : ModuleId} (name : Symbol) {args : List Argument} {place : Place}
    (module : judgement.module start target) (allowed : judgement.place start place)
    (each : ∀ arg ∈ args, judgement.fragment.argument arg) :
    judgement.rel start judgement.value
      (Eval.read (fun machine => machine.function? target name) >>= fun found =>
        Eval.ofOption found (.commandNotFound name) >>= fun function =>
          Evaluation.invokeBy call evaluate function args place target)
      (Eval.read (fun machine => machine.function? target name) >>= fun found =>
        Eval.ofOption found (.commandNotFound name) >>= fun function =>
          Evaluation.invokeBy rival other function args place target) := by
  refine judgement.bind (judgement.function? name module) fun found stage later good => ?_
  refine judgement.bind (judgement.ofOption (fun function present _ further =>
    judgement.value_onward (good function present) further) _)
    fun function final further closes => ?_
  refine scripts.invokeBy calls closes ?_ ?_ each
  · exact judgement.place_onward (judgement.place_onward allowed later) further
  · exact judgement.module_onward (judgement.module_onward module later) further

/-- A call into a module is one of a function that its table holds. -/
theorem callModuleBy {target : ModuleId} {args : List Argument} {place : Place}
    (module : judgement.module start target) (allowed : judgement.place start place)
    (each : ∀ arg ∈ args, judgement.fragment.argument arg) :
    judgement.rel start judgement.value (callModuleBy call evaluate target args place)
      (callModuleBy rival other target args place) := by
  rw [Evaluation.callModuleBy.eq_def, Evaluation.callModuleBy.eq_def]
  split
  · rw [List.forall_mem_cons] at each
    exact scripts.invokeFound calls _ module allowed each.2
  · exact judgement.fail _

/-- What is bound to a name is called by its kind. -/
theorem callValueBy {called : Value} (head : Symbol) {args : List Argument} {place : Place}
    (good : judgement.value start called) (allowed : judgement.place start place)
    (each : ∀ arg ∈ args, judgement.fragment.argument arg) :
    judgement.rel start judgement.value (callValueBy call evaluate called head args place)
      (callValueBy rival other called head args place) := by
  cases called with
  | function function =>
      exact scripts.invokeBy calls good allowed (judgement.module_of_place allowed) each
  | process id name =>
      refine judgement.bind (scripts.evalAll allowed each) fun values _ later all => ?_
      exact judgement.callProcess (judgement.value_onward good later) all
  | module target path =>
      exact scripts.callModuleBy calls (judgement.module_of_value good) allowed each
  | _ => exact judgement.fail _

/-- A command whose head is not built in. -/
theorem runNamedBy {frame : Evaluation.Frame} (allowed : judgement.Frame start frame)
    (head : Symbol) {args : List Argument}
    (each : ∀ arg ∈ args, judgement.fragment.argument arg) :
    judgement.rel start judgement.value (runNamedBy call evaluate frame head args)
      (runNamedBy rival other frame head args) := by
  refine judgement.bind (judgement.lookup head allowed.inside) fun bound stage later good => ?_
  have here := allowed.onward later
  cases bound with
  | some given => exact scripts.callValueBy calls head (good given rfl) here.inside each
  | none =>
      exact scripts.invokeFound calls head (judgement.module_of_place here.outside) here.inside each

end Calls

/-! ## Built-in commands -/

/-- The command `let` assigns what its argument yields. -/
theorem runDefine {frame : Evaluation.Frame} (allowed : judgement.Frame start frame) (name : Symbol)
    {arg : Argument} (fits : judgement.fragment.argument arg) :
    judgement.rel start judgement.value (runDefine evaluate frame name arg)
      (runDefine other frame name arg) := by
  refine judgement.bind (requireFree name _ allowed.outside) fun _ stage later _ => ?_
  have free := allowed.onward later
  refine judgement.bind (scripts.evalArgument free.inside arg fits)
    fun given final further good => ?_
  refine judgement.bind (judgement.bindFresh name _ (free.onward further).caller good)
    fun _ _ more _ => ?_
  exact judgement.pure fun _ last => judgement.value_onward (judgement.value_onward good more) last

/-- The command `if` evaluates its condition and then one of its scripts. -/
theorem runChoose {frame : Evaluation.Frame} (allowed : judgement.Frame start frame)
    {condition : Argument} {consequence : Script} {alternative : Option Script}
    (tested : judgement.fragment.argument condition)
    (fits : judgement.fragment.script consequence)
    (others : ∀ script ∈ alternative, judgement.fragment.script script) :
    judgement.rel start judgement.value (runChoose evaluate frame condition consequence alternative)
      (runChoose other frame condition consequence alternative) := by
  refine judgement.bind (scripts.evalArgument allowed.inside condition tested)
    fun given stage later _ => ?_
  refine judgement.bind (judgement.ofExcept_any _) fun holds final further _ => ?_
  have here := ((allowed.onward later).onward further).outside
  cases holds with
  | true => exact scripts.inBlock fits here
  | false =>
      cases alternative with
      | some script => exact scripts.inBlock (others script rfl) here
      | none => exact judgement.pure fun stage _ => value_ofBool judgement stage false

/-- The command `switch` tries its clauses in order. -/
theorem runSelect {frame : Evaluation.Frame} (allowed : judgement.Frame start frame)
    {clauses : List Clause}
    (each : ∀ clause ∈ clauses, (∀ condition ∈ clause.condition,
      judgement.fragment.script condition) ∧ judgement.fragment.script clause.body) :
    judgement.rel start judgement.value (runSelect evaluate frame clauses)
      (runSelect other frame clauses) := by
  induction clauses generalizing start with
  | nil => exact judgement.pure fun stage _ => value_ofBool judgement stage false
  | cons clause rest ih =>
      obtain ⟨⟨tested, fits⟩, others⟩ := List.forall_mem_cons.mp each
      obtain ⟨condition, body⟩ := clause
      cases condition with
      | none => exact scripts.inBlock fits allowed.outside
      | some condition =>
          refine judgement.bind (scripts.inBlock (tested condition rfl) allowed.outside)
            fun given stage later _ => ?_
          refine judgement.bind (judgement.ofExcept_any _) fun holds final further _ => ?_
          have here := (allowed.onward later).onward further
          cases holds with
          | true => exact scripts.inBlock fits here.outside
          | false => exact ih here others

/-- The command `guard` evaluates its body if its condition holds. -/
theorem runGuard {frame : Evaluation.Frame} (allowed : judgement.Frame start frame)
    {condition body : Script} (tested : judgement.fragment.script condition)
    (fits : judgement.fragment.script body) :
    judgement.rel start judgement.value (runGuard evaluate frame condition body)
      (runGuard other frame condition body) := by
  refine judgement.bind (scripts.inBlock tested allowed.outside) fun given stage later _ => ?_
  refine judgement.bind (judgement.ofExcept_any _) fun holds final further _ => ?_
  cases holds with
  | true => exact scripts _ _ _ fits ((allowed.onward later).onward further).caller
  | false => exact judgement.pure fun stage _ => value_ofBool judgement stage false

/-- By induction on the number of iterations that are left. -/
theorem iterate {place : Place} (allowed : judgement.place start place) (counter : Symbol)
    (first step : Float) {body : Script} (fits : judgement.fragment.script body) (left index : Nat)
    {results : Sequence Argument} (known : judgement.list results) :
    judgement.rel start (fun _ => judgement.list)
      (iterate evaluate place counter first step body left index results)
      (iterate other place counter first step body left index results) := by
  induction left generalizing start index results with
  | zero => exact judgement.pure fun _ _ => known
  | succ left ih =>
      refine judgement.bind (judgement.newBlock allowed) fun scope _ made below => ?_
      have entered := judgement.place_onward allowed made
      refine judgement.bind (judgement.assign counter below (judgement.value_number _ _))
        fun _ _ counted _ => ?_
      have home := judgement.home_onward (judgement.home_of_below entered below) counted
      refine judgement.bind (scripts _ _ _ fits home) fun given ended later good => ?_
      refine judgement.bind (judgement.ofExcept fun _ told _ _ => judgement.encode good told)
        fun result last further encoded => ?_
      have left := judgement.place_onward entered counted
      have here := judgement.place_onward (judgement.place_onward left later) further
      exact ih here _ (judgement.list_push known encoded)

/-- The bound of a loop is an argument that is a number. -/
theorem numberOf {place : Place} (allowed : judgement.place start place) {arg : Argument}
    (fits : judgement.fragment.argument arg) :
    judgement.rel start (fun _ _ => True) (numberOf evaluate place arg)
      (numberOf other place arg) :=
  judgement.bind (scripts.evalArgument allowed arg fits) fun _ _ _ _ => judgement.ofExcept_any _

/-- The command `loop` finds its bounds and evaluates its body for each number. -/
theorem runLoop {frame : Evaluation.Frame} (allowed : judgement.Frame start frame)
    (counter : Symbol) {first last : Argument} {body : Script}
    (starts : judgement.fragment.argument first) (stops : judgement.fragment.argument last)
    (fits : judgement.fragment.script body) :
    judgement.rel start judgement.value (runLoop evaluate frame counter first last body)
      (runLoop other frame counter first last body) := by
  refine judgement.bind (scripts.numberOf allowed.inside starts) fun first _ began _ => ?_
  have begun := allowed.onward began
  refine judgement.bind (scripts.numberOf begun.inside stops) fun last _ later _ => ?_
  refine judgement.bind (judgement.require _ _) fun _ _ finite _ => ?_
  refine judgement.bind (judgement.require _ _) fun _ _ within _ => ?_
  have here := ((begun.onward later).onward finite).onward within
  have empty : judgement.list Sequence.empty := judgement.list_ofList (List.forall_mem_nil _)
  refine judgement.bind (scripts.iterate here.outside counter _ _ fits _ _ empty)
    fun results _ _ known => ?_
  exact judgement.pure fun _ _ => judgement.value_list known

section Services

variable {services : Services Host} {rival : Services Other}
  (loads : judgement.Loaders (services.load evaluate) (rival.load other))
  (prints : judgement.Printers services.push rival.push)

omit scripts in
include loads in
/-- The command `import` loads its modules and then binds them. -/
theorem runLoadWith {frame : Evaluation.Frame} (allowed : judgement.Frame start frame)
    (entries : List (String × Symbol)) :
    judgement.rel start judgement.value (runLoadWith services evaluate frame entries)
      (runLoadWith rival other frame entries) := by
  induction entries generalizing start with
  | nil => exact judgement.pure fun stage _ => value_ofBool judgement stage true
  | cons entry rest ih =>
      obtain ⟨path, name⟩ := entry
      refine judgement.bind judgement.hasLoader fun canLoad _ looked _ => ?_
      refine judgement.bind (judgement.require _ _) fun _ _ able _ => ?_
      have ready := (allowed.onward looked).onward able
      refine judgement.bind (requireFree name _ ready.outside) fun _ _ free _ => ?_
      refine judgement.bind (judgement.mapError (loads _ path) _) fun id _ loaded module => ?_
      have here := (ready.onward free).onward loaded
      refine judgement.bind (judgement.bindFresh name _ here.caller module) fun _ _ bound _ => ?_
      exact ih (here.onward bound)

include prints in
/-- The print commands push the text of their arguments. -/
theorem runPrintWith {frame : Evaluation.Frame} (allowed : judgement.Frame start frame)
    (channel : Symbol) {args : List Argument}
    (each : ∀ arg ∈ args, judgement.fragment.argument arg) :
    judgement.rel start judgement.value (runPrintWith services evaluate frame channel args)
      (runPrintWith rival other frame channel args) := by
  refine judgement.bind (scripts.evalAll allowed.inside each) fun values _ later _ => ?_
  refine judgement.bind (judgement.lookup channel (allowed.onward later).inside)
    fun found _ _ _ => ?_
  refine judgement.bind (judgement.ofOption_any _ _) fun mailbox _ _ _ => ?_
  exact prints _ mailbox (printedLine values)

include prints in
/-- Every built-in command is judged by the lemma about it. -/
theorem runFormWith (loads : judgement.fragment.loading →
      judgement.Loaders (services.load evaluate) (rival.load other))
    {frame : Evaluation.Frame} (allowed : judgement.Frame start frame) {form : Form}
    (fits : form.Within judgement.fragment.argument judgement.fragment.script
      judgement.fragment.defining judgement.fragment.loading) :
    judgement.rel start judgement.value (runFormWith services evaluate frame form)
      (runFormWith rival other frame form) := by
  cases form with
  | define name arg => exact scripts.runDefine allowed name fits
  | choose condition consequence alternative =>
      exact scripts.runChoose allowed fits.1 fits.2.1 fits.2.2
  | select clauses => exact scripts.runSelect allowed fits
  | guard condition body => exact scripts.runGuard allowed fits.1 fits.2
  | loop counter first last body => exact scripts.runLoop allowed counter fits.1 fits.2.1 fits.2.2
  | function name params body => exact judgement.runFunction name params body fits allowed.outside
  | load entries => exact runLoadWith (loads fits) allowed entries
  | print channel args => exact scripts.runPrintWith prints allowed channel fits
  | block body => exact scripts.inBlock fits allowed.outside
  | truth holds => exact judgement.pure fun stage _ => value_ofBool judgement stage holds

include loads prints

/-- A command whose head is built in. -/
theorem runBuiltinWith {frame : Evaluation.Frame} (allowed : judgement.Frame start frame)
    {command : Command} (fits : judgement.fragment.command command) {builtin : Builtin}
    (called : Builtin.ofName? command.head.text = some builtin) :
    judgement.rel start judgement.value
      (runBuiltinWith services evaluate frame builtin command.args)
      (runBuiltinWith rival other frame builtin command.args) := by
  rw [Evaluation.runBuiltinWith, Evaluation.runBuiltinWith]
  cases shaped : Form.ofArguments? builtin command.args with
  | some form =>
      exact scripts.runFormWith prints (fun _ => loads) allowed
        (judgement.fragment.form_of_command fits called shaped)
  | none => exact judgement.fail _

/-! ## Commands and scripts -/

/-- A command, where the services are given. -/
theorem evalCommandWith
    (calls : judgement.Callers (callFunction evaluate) (callFunction other)) {place : Place}
    (allowed : judgement.home start place) {command : Command}
    (fits : judgement.fragment.command command) :
    judgement.rel start judgement.value (evalCommandWith services evaluate place command)
      (evalCommandWith rival other place command) := by
  refine judgement.bind (judgement.newBlock (judgement.place_of_home allowed))
    fun context stage later below => ?_
  have frame := frame_of_below (judgement.home_onward allowed later) below
  cases called : Builtin.ofName? command.head.text with
  | some builtin => exact scripts.runBuiltinWith loads prints frame fits called
  | none =>
      exact scripts.runNamedBy calls frame command.head (judgement.fragment.args_of_command fits)

/-- Commands are judged one after the other, each in its home. -/
theorem evalCommandsWith
    (calls : judgement.Callers (callFunction evaluate) (callFunction other)) {place : Place}
    (allowed : judgement.home start place) {commands : List Command}
    (each : ∀ command ∈ commands, judgement.fragment.command command) {last : Value}
    (good : judgement.value start last) :
    judgement.rel start judgement.value (evalCommandsWith services evaluate place commands last)
      (evalCommandsWith rival other place commands last) := by
  induction commands generalizing start last with
  | nil => exact judgement.pure fun _ later => judgement.value_onward good later
  | cons command rest ih =>
      rw [List.forall_mem_cons] at each
      refine judgement.bind (scripts.evalCommandWith loads prints calls allowed each.1)
        fun given stage later good => ?_
      exact ih (judgement.home_onward allowed later) each.2 good

end Services

section Callers

variable {call : Caller Host} {rival : Caller Other}
  (calls : judgement.Callers (call evaluate) (rival other))
  (loads : judgement.Loaders (loadModule evaluate) (loadModule other))
  (prints : judgement.Printers pushAndWait pushAndWait)
include calls loads prints

/-- A command, where the caller of functions is given. -/
theorem evalCommandBy {place : Place} (allowed : judgement.home start place) {command : Command}
    (fits : judgement.fragment.command command) :
    judgement.rel start judgement.value (evalCommandBy call evaluate place command)
      (evalCommandBy rival other place command) := by
  refine judgement.bind (judgement.newBlock (judgement.place_of_home allowed))
    fun context stage later below => ?_
  have frame := frame_of_below (judgement.home_onward allowed later) below
  cases called : Builtin.ofName? command.head.text with
  | some builtin =>
      dsimp only
      rw [← runBuiltinWith_standard, ← runBuiltinWith_standard]
      exact scripts.runBuiltinWith loads prints frame fits called
  | none =>
      exact scripts.runNamedBy calls frame command.head (judgement.fragment.args_of_command fits)

/-- The same with another caller of functions. -/
theorem evalCommandsBy {place : Place} (allowed : judgement.home start place)
    {commands : List Command} (each : ∀ command ∈ commands, judgement.fragment.command command)
    {last : Value} (good : judgement.value start last) :
    judgement.rel start judgement.value (evalCommandsBy call evaluate place commands last)
      (evalCommandsBy rival other place commands last) := by
  induction commands generalizing start last with
  | nil => exact judgement.pure fun _ later => judgement.value_onward good later
  | cons command rest ih =>
      rw [List.forall_mem_cons] at each
      refine judgement.bind (scripts.evalCommandBy calls loads prints allowed each.1)
        fun given stage later good => ?_
      exact ih (judgement.home_onward allowed later) each.2 good

end Callers

end Evaluators

/-! ## Nesting -/

section Nesting

variable (commands : ∀ {script : Script}, judgement.fragment.script script →
    ∀ command ∈ script, judgement.fragment.command command)
  (exhausted : ∀ start, judgement.rel start judgement.value Eval.exhausted Eval.exhausted)
include commands exhausted

/-- What is kept by single steps is kept by scripts, however deeply they are nested. -/
theorem evaluators_evalScriptWith {services : Services Host} {rival : Services Other}
    (calls : ∀ {evaluate : Evaluator Host} {other : Evaluator Other},
      judgement.Evaluators evaluate other →
      judgement.Callers (callFunction evaluate) (callFunction other))
    (loads : ∀ {evaluate : Evaluator Host} {other : Evaluator Other},
      judgement.Evaluators evaluate other →
      judgement.Loaders (services.load evaluate) (rival.load other))
    (prints : judgement.Printers services.push rival.push) (depth : Nat) :
    judgement.Evaluators (evalScriptWith services depth) (evalScriptWith rival depth) := by
  induction depth with
  | zero => exact fun _ _ _ _ _ => exhausted _
  | succ depth ih =>
      exact fun _ _ _ fits allowed => ih.evalCommandsWith (loads ih) prints (calls ih) allowed
        (commands fits) (judgement.value_nothing _)

/-- Scripts are judged at every depth, if calls and loads are judged wherever scripts are. -/
theorem evaluators_evalScriptBy {call : Caller Host} {rival : Caller Other}
    (calls : ∀ {evaluate : Evaluator Host} {other : Evaluator Other},
      judgement.Evaluators evaluate other → judgement.Callers (call evaluate) (rival other))
    (loads : ∀ {evaluate : Evaluator Host} {other : Evaluator Other},
      judgement.Evaluators evaluate other →
      judgement.Loaders (loadModule evaluate) (loadModule other))
    (prints : judgement.Printers pushAndWait pushAndWait) (depth : Nat) :
    judgement.Evaluators (evalScriptBy call depth) (evalScriptBy rival depth) := by
  induction depth with
  | zero => exact fun _ _ _ _ _ => exhausted _
  | succ depth ih =>
      exact fun _ _ _ fits allowed => ih.evalCommandsBy (calls ih) (loads ih) prints allowed
        (commands fits) (judgement.value_nothing _)

end Nesting

/-- A judgement on computations of one host, as it holds of the evaluator itself. -/
theorem evaluators_evalScript {judgement : Judgement Host Host}
    (commands : ∀ {script : Script}, judgement.fragment.script script →
      ∀ command ∈ script, judgement.fragment.command command)
    (exhausted : ∀ start, judgement.rel start judgement.value Eval.exhausted Eval.exhausted)
    (calls : ∀ {evaluate : Evaluator Host}, judgement.Evaluators evaluate evaluate →
      judgement.Callers (callFunction evaluate) (callFunction evaluate))
    (loads : ∀ {evaluate : Evaluator Host}, judgement.Evaluators evaluate evaluate →
      judgement.Loaders (loadModule evaluate) (loadModule evaluate))
    (prints : judgement.Printers pushAndWait pushAndWait) (depth : Nat) :
    judgement.Evaluators (evalScript depth) (evalScript depth) := by
  induction depth with
  | zero => exact fun _ _ _ _ _ => exhausted _
  | succ depth ih =>
      intro start script place fits allowed
      change judgement.rel start judgement.value
        (evalCommands (evalScript depth) place script .nothing)
        (evalCommands (evalScript depth) place script .nothing)
      rw [← evalCommandsBy_callFunction]
      exact ih.evalCommandsBy (calls ih) (loads ih) prints allowed (commands fits)
        (judgement.value_nothing _)

end Judgement

end CommandScript.Evaluation
