import CommandScript.Proofs.Evaluation.ModuleHistory
import CommandScript.Proofs.Evaluation.Recording
import CommandScript.Proofs.Evaluation.ScopeFrame
import CommandScript.Proofs.Host.Supply
import CommandScript.Proofs.Machine.Agreement

/-!
# Calls do not see what they cannot reach

A call starts from the closure of its function, its arguments, the module it is made in, the loaded
modules and the root scope. On two machines that differ in the bindings of a scope that these do not
lead to, the call does the same: it yields the same value or the same error, it pushes the same
values to the same mailboxes, and it leaves all other scopes with the same bindings. What carries
the proof is the region of what the call can reach or may yet make: nothing leads out of it, and
every step of evaluation keeps it so. A call also reaches what the host keeps for the processes that
it reaches; without that it would see more than it reaches
(`CommandScript.Evaluation.retell_reads_lost_scope`).
-/

namespace CommandScript.Evaluation

open CommandScript.Machine CommandScript.Source

variable {Host : Type} {keeps : Keeps Host} {region : Set Node} {secret : ScopeId}

/-- The machines differ at most in what one scope binds, and the region is sealed. -/
structure LookAlike (keeps : Keeps Host) (region : Set Node) (secret : ScopeId)
    (first second : Machine Host) : Prop where
  agree : first.AgreesOff secret second
  closed : first.Sealed keeps region

/-- Computations that start inside the region are compared on machines that look alike. -/
def veiled (keeps : Keeps Host) (region : Set Node) (secret : ScopeId) : Comparison Host Host where
  scope id := .scope id ∈ region
  module id := .module id ∈ region
  process id := .process id ∈ region
  rel := Eval.Matches (LookAlike keeps region secret)

/-- A value may be compared if all that it leads to lies in the region. -/
theorem veiled_value {value : Value} :
    (veiled keeps region secret).value value ↔ value.nodes ⊆ region := by
  cases value with
  | function function => exact Set.singleton_subset_iff.symm
  | process id name => exact Set.singleton_subset_iff.symm
  | module id path => exact Set.singleton_subset_iff.symm
  | _ => exact ⟨fun _ => Set.empty_subset region, fun _ => trivial⟩

/-- Parameters are bound to values that stay in the region. -/
theorem veiled_zip {names : List Symbol} {values : List Value}
    (good : ∀ value ∈ values, (veiled keeps region secret).value value) :
    ∀ binding ∈ names.zip values, binding.2.nodes ⊆ region := by
  rintro ⟨name, value⟩ member
  exact veiled_value.mp (good value (List.of_mem_zip member).2)

section Steps

variable (hidden : .scope secret ∉ region)
include hidden

/-- No scope of the region is the secret one. -/
theorem apart_of_hidden {id : ScopeId} (inside : .scope id ∈ region) : id ≠ secret :=
  fun same => hidden (same ▸ inside)

theorem veiled_newBlock {parent : ScopeId} (inside : .scope parent ∈ region) :
    Eval.Matches (LookAlike keeps region secret) (fun id => .scope id ∈ region)
      (newBlock parent) (newBlock parent) := by
  rintro first - ⟨⟨scopes, agree, rfl⟩, closed⟩
  rw [newBlock, newBlock]
  dsimp only
  rw [agree.made]
  refine .value (closed.newScope (Nat.le_refl _)) ?_
  exact ⟨⟨_, agree.addBlock (apart_of_hidden hidden inside), rfl⟩, closed.addBlock inside⟩

omit hidden in
/-- A function is entered inside the region. -/
theorem veiled_enterFunction {function : Function} {values : List Value}
    (inside : .scope function.closure ∈ region)
    (good : ∀ value ∈ values, (veiled keeps region secret).value value) :
    Eval.Matches (LookAlike keeps region secret) (fun id => .scope id ∈ region)
      (enterFunction function values) (enterFunction function values) := by
  rintro first - ⟨⟨scopes, agree, rfl⟩, closed⟩
  rw [enterFunction, enterFunction]
  dsimp only
  rw [agree.made]
  refine .value (closed.newScope (Nat.le_refl _)) ?_
  exact ⟨⟨_, (agree.add _).foldl_assign _ _, rfl⟩,
    closed.enterFunction inside _ (veiled_zip good)⟩

omit hidden in
/-- An assignment is the same on both machines, also one to the secret scope. -/
theorem veiled_assign (scope : ScopeId) (name : Symbol) {value : Value}
    (good : value.nodes ⊆ region) :
    Eval.Matches (LookAlike keeps region secret) (fun _ => True) (assign scope name value)
      (assign scope name value) := by
  apply Eval.Matches.modify
  rintro first - ⟨⟨scopes, agree, rfl⟩, closed⟩
  exact ⟨⟨_, agree.assign scope name value, rfl⟩, closed.assign scope name good⟩

/-- A scope of the region has the same names free on both machines. -/
theorem veiled_isFree {scope : ScopeId} (name : Symbol) (inside : .scope scope ∈ region) :
    Eval.Matches (LookAlike keeps region secret) (fun _ => True)
      (Eval.read fun machine => machine.scopes.isFree scope name)
      (Eval.read fun machine => machine.scopes.isFree scope name) := by
  apply Eval.Matches.read
  rintro first - ⟨⟨scopes, agree, rfl⟩, closed⟩
  exact ⟨agree.isFree_eq (apart_of_hidden hidden inside) name, trivial⟩

/-- A name is bound in a scope of the region on both machines or on neither. -/
theorem veiled_bindFresh {scope : ScopeId} (name : Symbol) {value : Value} (error : EvalError)
    (inside : .scope scope ∈ region) (good : value.nodes ⊆ region) :
    Eval.Matches (LookAlike keeps region secret) (fun _ => True) (bindFresh scope name value error)
      (bindFresh scope name value error) := by
  rintro first - ⟨⟨scopes, agree, rfl⟩, closed⟩
  rw [bindFresh, bindFresh, Scopes.bind?, Scopes.bind?]
  dsimp only
  rw [agree.isFree_eq (apart_of_hidden hidden inside)]
  cases first.scopes.isFree scope name with
  | true =>
      exact .value trivial
        ⟨⟨_, agree.assign scope name value, rfl⟩, closed.assign scope name good⟩
  | false => exact .halted ⟨⟨_, agree, rfl⟩, closed⟩

/-- What is looked up from a scope of the region is found on both machines alike. -/
theorem veiled_lookup {scope : ScopeId} (name : Symbol) (inside : .scope scope ∈ region) :
    Eval.Matches (LookAlike keeps region secret)
      (fun found => ∀ value ∈ found, (veiled keeps region secret).value value)
      (Eval.read fun machine => machine.scopes.lookup scope name)
      (Eval.read fun machine => machine.scopes.lookup scope name) := by
  apply Eval.Matches.read
  rintro first - ⟨⟨scopes, agree, rfl⟩, closed⟩
  refine ⟨agree.lookup_eq closed.scopes hidden inside name, fun value found => ?_⟩
  exact veiled_value.mpr (closed.scopes.lookup inside found)

omit hidden in
/-- A process of the region does the same on both machines, for it sees the same host. -/
theorem veiled_callProcess {id : ProcessId} (name : String) {values : List Value}
    (inside : .process id ∈ region)
    (good : ∀ value ∈ values, (veiled keeps region secret).value value) :
    Eval.Matches (LookAlike keeps region secret) (veiled keeps region secret).value
      (callProcess id name values) (callProcess id name values) := by
  rintro first - ⟨⟨scopes, agree, rfl⟩, closed⟩
  have good' : ∀ value ∈ values, value.nodes ⊆ region := fun value member =>
    veiled_value.mp (good value member)
  rw [callProcess, callProcess]
  dsimp only
  cases found : first.processes[id]? with
  | none => exact .halted ⟨⟨_, agree, rfl⟩, closed⟩
  | some process =>
      dsimp only
      have after := closed.afterProcess inside good' found first.counts
      rw [show (Machine.counts { first with scopes := scopes }) = first.counts from rfl]
      cases yielded : (process.run ⟨values, first.counts⟩ first.host).1 with
      | ok value =>
          have yields := closed.process_yields inside good' found first.counts yielded
          exact .value (veiled_value.mpr yields) ⟨⟨_, agree, rfl⟩, after⟩
      | error error => exact .halted ⟨⟨_, agree, rfl⟩, after⟩

/-- Evaluation inside the region does not tell the machines apart. -/
theorem veiled_lawful : (veiled keeps region secret).Lawful where
  pure good := .pure good
  fail error := .fail error
  exhausted := .exhausted
  bind head tail := head.bind tail
  mapError matched tell := matched.mapError tell
  newBlock inside := veiled_newBlock hidden inside
  enterFunction inside good := veiled_enterFunction inside good
  assign name _ _ good := veiled_assign _ name (veiled_value.mp good)
  bindFresh name _ error inside good :=
    veiled_bindFresh hidden name error inside (veiled_value.mp good)
  isFree name inside := veiled_isFree hidden name inside
  lookup name inside := veiled_lookup hidden name inside
  hasLoader := by
    apply Eval.Matches.read
    rintro first - ⟨⟨scopes, agree, rfl⟩, closed⟩
    exact ⟨rfl, trivial⟩
  function? name inside := by
    apply Eval.Matches.read
    rintro first - ⟨⟨scopes, agree, rfl⟩, closed⟩
    exact ⟨rfl, fun function found => closed.function? inside found⟩
  owner path fallback inside := by
    apply Eval.Matches.read
    rintro first - ⟨⟨scopes, agree, rfl⟩, closed⟩
    refine ⟨rfl, ?_⟩
    cases found : first.loaded? path with
    | none => exact inside
    | some id => exact closed.loaded? found
  callProcess name _ inside good := veiled_callProcess name inside good
  insideFunction inside := by
    apply Eval.Matches.read
    rintro first - ⟨⟨scopes, agree, rfl⟩, closed⟩
    exact ⟨agree.insideFunction_eq (apart_of_hidden hidden inside), trivial⟩
  isDefined name inside := by
    apply Eval.Matches.read
    rintro first - ⟨⟨scopes, agree, rfl⟩, closed⟩
    exact ⟨rfl, trivial⟩
  newFunction name params body place := by
    apply Eval.Matches.read
    rintro first - ⟨⟨scopes, agree, rfl⟩, closed⟩
    exact ⟨rfl, place.scope⟩
  define _ closure := by
    apply Eval.Matches.modify
    rintro first - ⟨⟨scopes, agree, rfl⟩, closed⟩
    exact ⟨⟨_, agree, rfl⟩, closed.define _ closure⟩

end Steps

/-! ## Services -/

/-- What a print command makes of an outcome is the same on both machines. -/
theorem veiled_printed (outcome : Mailbox.Outcome Value) {first second : Machine Host}
    (same : LookAlike keeps region secret first second) :
    Run.Matches (LookAlike keeps region secret) (veiled keeps region secret).value
      (printed outcome first) (printed outcome second) := by
  cases outcome with
  | ok _ => exact .value trivial same
  | error failure => exact .halted same

/-- Both machines push the same value and wait for the same answer. -/
theorem veiled_pushAndWait (mailbox : MailboxId) (value : Value) :
    Eval.Matches (LookAlike keeps region secret) (veiled keeps region secret).value
      (pushAndWait mailbox value) (pushAndWait mailbox value) := by
  rintro first second ⟨agree, closed⟩
  obtain ⟨pushed, progress⟩ := agree.push mailbox value (some printToken)
  have after := closed.onlyMailboxes (onlyMailboxes_push first mailbox value (some printToken))
  rw [pushAndWait, pushAndWait]
  generalize first.push mailbox value (some printToken) = one at pushed progress after
  generalize second.push mailbox value (some printToken) = other at pushed progress
  obtain ⟨one, reached⟩ := one
  obtain ⟨other, also⟩ := other
  cases progress
  cases reached with
  | ended outcome => exact veiled_printed outcome ⟨pushed, after⟩
  | waiting pending =>
      exact .waiting ⟨pushed, after⟩ fun answer _ _ same => veiled_printed answer same

/-- A module is loaded on both machines alike. -/
theorem veiled_loadModule (hidden : .scope secret ∉ region) {evaluate other : Evaluator Host}
    (scripts : (veiled keeps region secret).Evaluators evaluate other) (path : String) :
    Eval.Matches (LookAlike keeps region secret) (veiled keeps region secret).module
      (loadModule evaluate path) (loadModule other path) := by
  rintro first - ⟨⟨scopes, agree, rfl⟩, closed⟩
  rw [loadModule, loadModule, show Machine.loaded? { first with scopes := scopes } path =
    first.loaded? path from rfl]
  dsimp only
  cases found : first.loaded? path with
  | some id => exact .value (closed.loaded? found) ⟨⟨_, agree, rfl⟩, closed⟩
  | none =>
      cases present : first.loader with
      | none =>
          dsimp only
          rw [← present]
          exact .halted ⟨⟨_, agree, rfl⟩, closed⟩
      | some load =>
          dsimp only
          rw [← present]
          have consulted := closed.afterLoad present path
          generalize (load path first.host).2 = host at consulted
          cases (load path first.host).1 with
          | error error => exact .halted ⟨⟨_, agree, rfl⟩, consulted⟩
          | ok script =>
              have place : (veiled keeps region secret).Place
                  ⟨first.scopes.next, first.modules.size⟩ :=
                ⟨closed.newScope (Nat.le_refl _), closed.newModule (Nat.le_refl _)⟩
              have added := consulted.addModule path
              have apart := apart_of_hidden hidden closed.root
              have differ : AgreesOff secret { first with host := host }
                  { first with scopes := scopes, host := host } := ⟨scopes, agree, rfl⟩
              dsimp only
              rw [agree.made]
              refine .andThen (.onHalt (scripts script _ place _ _ ?_) ?_) ?_
              · exact ⟨differ.addModule apart path, added⟩
              · rintro failed - ⟨⟨scopes, agree, rfl⟩, closed⟩
                exact ⟨⟨_, agree, rfl⟩, closed.unregister path⟩
              · exact fun _ _ _ _ same => .value (closed.newModule (Nat.le_refl _)) same

/-- The usual services do the same on both machines. -/
theorem veiled_standard (hidden : .scope secret ∉ region) :
    (veiled keeps region secret).OfServices .standard .standard :=
  ⟨fun mailbox text => veiled_pushAndWait mailbox (.text text),
    fun scripts path => veiled_loadModule hidden scripts path⟩

/-! ## Records -/

/-- What the host keeps for each process, its record left aside. -/
def recordedKeeps (keeps : Keeps Host) : Keeps (Recorded Host) :=
  fun id state => keeps id state.host

/-- A record leads nowhere. -/
theorem sealed_recorded {machine : Machine Host} (closed : machine.Sealed keeps region)
    (events : List Event) : (recorded machine events).Sealed (recordedKeeps keeps) region where
  laws := by
    refine ⟨?_, ?_, ?_⟩
    · intro id process found call state value yielded
      rw [recorded, Array.getElem?_map, Option.map_eq_some_iff] at found
      obtain ⟨plain, there, rfl⟩ := found
      exact closed.laws.yields there call state.host value yielded
    · intro id process found call state other
      rw [recorded, Array.getElem?_map, Option.map_eq_some_iff] at found
      obtain ⟨plain, there, rfl⟩ := found
      exact closed.laws.retains there call state.host other
    · intro load present path state other
      obtain ⟨plain, there, rfl⟩ := Option.map_eq_some_iff.mp present
      exact closed.laws.loads plain there path state.host other
  scopes := closed.scopes
  modules := closed.modules
  loaded := closed.loaded
  root := closed.root
  kept := closed.kept
  newScope := closed.newScope
  newModule := closed.newModule

/-- An event is noted on both machines. -/
theorem veiled_record (event : Event) :
    Eval.Matches (LookAlike (recordedKeeps keeps) region secret) (fun _ => True) (record event)
      (record event) := by
  apply Eval.Matches.modify
  rintro first - ⟨⟨scopes, agree, rfl⟩, closed⟩
  exact ⟨⟨scopes, agree, rfl⟩, closed.withHost fun id inside => closed.kept inside⟩

/-- The services that take notes do the same on both machines. -/
theorem veiled_recording (hidden : .scope secret ∉ region) :
    (veiled (recordedKeeps keeps) region secret).OfServices .recording .recording where
  push mailbox text := (veiled_record _).bind fun _ _ => veiled_pushAndWait mailbox (.text text)
  load scripts path := by
    refine veiled_loadModule hidden (fun script place allowed => ?_) path
    refine (scripts script place allowed).bind fun value good => ?_
    exact (veiled_record _).bind fun _ _ => .pure good

/-! ## Calls -/

/-- A call from inside the region does the same on both machines, at every depth. -/
theorem veiled_callFunction {services : Services Host} (hidden : .scope secret ∉ region)
    (served : (veiled keeps region secret).OfServices services services) (depth : Nat)
    {function : Function} {values : List Value} {module : ModuleId}
    (closure : .scope function.closure ∈ region) (good : ∀ value ∈ values, value.nodes ⊆ region)
    (current : .module module ∈ region) :
    Eval.Matches (LookAlike keeps region secret) (fun _ => True)
      (callFunction (evalScriptWith services depth) function values module)
      (callFunction (evalScriptWith services depth) function values module) := by
  have lawful : (veiled keeps region secret).Lawful := veiled_lawful hidden
  have given : ∀ value ∈ values, (veiled keeps region secret).value value :=
    fun value member => veiled_value.mpr (good value member)
  intro first second same
  exact (lawful.callFunction (lawful.evalScriptWith served depth) closure given current first second
    same).weaken fun _ _ => trivial

/-- What two machines that differ in one scope have to do with a call. The runs of the call match:
where they wait or end, the machines differ in that scope only, and so they do with a record of all
that was pushed, which does not change the call. Nor does the call touch any scope made before. -/
structure CallUnaffected (keeps : Keeps Host) (secret : ScopeId) (depth : Nat) (function : Function)
    (values : List Value) (module : ModuleId) (first second : Machine Host) : Prop where
  alike : Run.Matches
    (LookAlike keeps (callRegion keeps first function values module) secret) (fun _ => True)
    (callFunction (evalScript depth) function values module first)
    (callFunction (evalScript depth) function values module second)
  recordedAlike : Run.Matches
    (LookAlike (recordedKeeps keeps) (callRegion keeps first function values module) secret)
    (fun _ => True)
    (callFunction (evalScriptWith .recording depth) function values module (recorded first []))
    (callFunction (evalScriptWith .recording depth) function values module (recorded second []))
  recordedFaithfully : ∀ machine : Machine Host, Run.Matches RecordOf (fun _ => True)
    (callFunction (evalScriptWith .recording depth) function values module (recorded machine []))
    (callFunction (evalScript depth) function values module machine)
  untouched : ∀ machine : Machine Host,
    (callFunction (evalScript depth) function values module machine).Follows
      (framing Host machine.scopes.next ∅) machine

/-- A call is not affected by what a scope binds that it cannot reach. -/
theorem callFunction_unaffected {first second : Machine Host} (laws : HostLaws keeps first)
    {function : Function} {values : List Value} {module : ModuleId}
    (made : secret < first.scopes.next)
    (hidden : ¬first.Reaches keeps (CallRoot first function values module) (.scope secret))
    (agree : first.AgreesOff secret second) (depth : Nat) :
    CallUnaffected keeps secret depth function values module first second := by
  have closed := sealed_callRegion laws function values module
  have outside : .scope secret ∉ callRegion keeps first function values module := by
    intro inside
    cases inside with
    | reached reaches => exact hidden reaches
    | newScope new => exact absurd made (Nat.not_lt_of_le new)
  have closure : .scope function.closure ∈ callRegion keeps first function values module :=
    .reached (.root .closure)
  have good : ∀ value ∈ values, value.nodes ⊆ callRegion keeps first function values module :=
    fun value member node leads => .reached (.root (.argument ⟨value, member, leads⟩))
  have current : .module module ∈ callRegion keeps first function values module :=
    .reached (.root .module)
  refine ⟨?_, ?_, ?_, ?_⟩
  · rw [← evalScriptWith_standard]
    exact veiled_callFunction outside (veiled_standard outside) depth closure good current first
      second ⟨agree, closed⟩
  · obtain ⟨scopes, agree, rfl⟩ := agree
    exact veiled_callFunction outside (veiled_recording outside) depth closure good current _ _
      ⟨⟨scopes, agree, rfl⟩, sealed_recorded closed []⟩
  · intro machine
    exact (erasing_lawful.callFunction (erasing_evalScript depth) trivial
      (fun value _ => erasing_value value) trivial _ machine ⟨[], rfl⟩).weaken fun _ _ => trivial
  · intro machine
    exact (framesScripts_evalScript depth).callFunction function values module machine
      (Nat.le_refl _)

/-! ## A caller that takes a channel's name -/

section Greeting

open CommandScript.Host

/-- The scopes of a fresh machine, with two processes bound in the root. -/
def outerScopes : Scopes Value :=
  (firstScopes.assign rootScope ⟨"stash", rfl⟩ (.process 0 "stash")).assign rootScope
    ⟨"fetch", rfl⟩ (.process 1 "fetch")

/-- A machine with the two processes, which share a cell, and with a block in the main module, where
the caller of a function binds its locals. -/
def stage (locals : Bindings Value) : Machine Cell :=
  { Machine.new Settings.default none .nothing with
    processes := (["stash", "fetch"].filterMap process?).toArray
    scopes := outerScopes.add ⟨some 1, locals, false⟩ }

/-- The block of the caller. -/
def callerBlock : ScopeId := 2

/-- A function of the main module that puts its argument in the cell and prints what is there. -/
def greet : Function where
  id := 0
  name := ⟨"greet", rfl⟩
  module := mainPath
  closure := 1
  params := [⟨"name", rfl⟩]
  body := [.mk ⟨"stash", rfl⟩ [.variable ⟨"name", rfl⟩],
    .mk ⟨"println", rfl⟩ [.script [.mk ⟨"fetch", rfl⟩ []]]]

/-- The processes of the stage make up no values. -/
theorem hostLaws_stage (locals : Bindings Value) : HostLaws cellKeeps (stage locals) := by
  apply hostLaws_of_standard
  · intro process member
    obtain ⟨name, -, known⟩ := List.mem_filterMap.mp (List.mem_toArray.mp member)
    exact ⟨name, known⟩
  · exact fun load present => nomatch present

/-- The other scopes do not depend on the locals. -/
theorem find?_stage (locals : Bindings Value) {id : ScopeId} (apart : id ≠ callerBlock) :
    (stage locals).scopes.find? id = outerScopes.find? id := by
  have next : outerScopes.next = callerBlock := rfl
  change (outerScopes.add _).find? id = _
  rw [Scopes.find?_add, next, if_neg apart]

/-- The scopes around the block bind channels and processes only. -/
theorem closed_outerScopes : outerScopes.Closed {node | node ≠ .scope callerBlock} := by
  have below {id : Nat} {scope : Scope Value} (found : outerScopes.find? id = some scope) :
      id = 0 ∨ id = 1 := by
    have bound : id < 2 := Scopes.lt_next_of_find? found
    omega
  refine ⟨?_, ?_⟩
  · intro id scope _ found above isParent same
    rcases below found with rfl | rfl
    · cases found
      cases isParent
    · cases found
      cases isParent
      cases same
  · intro id scope _ found binding member node leads same
    subst same
    rcases below found with rfl | rfl
    · cases found
      change binding ∈ [(Keyword.stdout, Value.mailbox stdoutId),
        (Keyword.stderr, .mailbox stderrId), (Keyword.stdin, .mailbox stdinId),
        (_, .process 0 "stash"), (_, .process 1 "fetch")] at member
      simp only [List.mem_cons, List.not_mem_nil, or_false] at member
      rcases member with rfl | rfl | rfl | rfl | rfl
      · exact leads
      · exact leads
      · exact leads
      · cases leads
      · cases leads
    · cases found
      cases member

/-- Nothing but the block itself leads to the block. -/
theorem sealed_stage (locals : Bindings Value) :
    (stage locals).Sealed cellKeeps {node | node ≠ .scope callerBlock} where
  laws := hostLaws_stage locals
  scopes := by
    have apart {id : ScopeId} (inside : Node.scope id ∈ {node | node ≠ .scope callerBlock}) :
        id ≠ callerBlock := fun same => inside (same ▸ rfl)
    refine ⟨?_, ?_⟩
    · intro id scope inside found
      rw [find?_stage locals (apart inside)] at found
      exact closed_outerScopes.parent inside found
    · intro id scope inside found
      rw [find?_stage locals (apart inside)] at found
      exact closed_outerScopes.bound inside found
  modules := by
    have main {id : ModuleId} {module : Module} (found : (stage locals).modules[id]? = some module) :
        module = ⟨mainPath, 1, []⟩ := by
      exact List.mem_singleton.mp (List.mem_of_getElem? (Array.getElem?_toList ▸ found))
    refine ⟨?_, ?_⟩
    · intro id module _ found same
      rw [main found] at same
      cases same
    · intro id module _ found entry member
      rw [main found] at member
      cases member
  loaded entry member := Node.noConfusion
  root same := by cases same
  kept _ node leads := absurd leads (Set.notMem_empty node)
  newScope {id} past same := by
    cases same
    exact absurd past (show ¬3 ≤ 2 by decide)
  newModule past := Node.noConfusion

/-- The locals of the caller do not turn the greeting to another channel. -/
theorem greet_unaffected :
    HostLaws cellKeeps (stage []) ∧ callerBlock < (stage []).scopes.next ∧
      ¬(stage []).Reaches cellKeeps (CallRoot (stage []) greet [.text "hello"] mainModule)
        (.scope callerBlock) ∧
      (stage []).AgreesOff callerBlock (stage [(Keyword.stdout, .mailbox stderrId)]) ∧
      CallUnaffected cellKeeps callerBlock 3 greet [.text "hello"] mainModule (stage [])
        (stage [(Keyword.stdout, .mailbox stderrId)]) := by
  have made : callerBlock < (stage []).scopes.next := by decide
  have hidden : ¬(stage []).Reaches cellKeeps
      (CallRoot (stage []) greet [.text "hello"] mainModule) (.scope callerBlock) := by
    intro reaches
    refine (sealed_stage []).mem_of_reaches ?_ reaches rfl
    intro node start same
    cases start with
    | closure => cases same
    | argument member =>
        obtain ⟨value, member, leads⟩ := member
        rw [List.mem_singleton.mp member] at leads
        exact leads
    | module => cases same
    | loaded member => cases same
    | root => cases same
  have agree : (stage []).AgreesOff callerBlock (stage [(Keyword.stdout, .mailbox stderrId)]) := by
    refine ⟨(stage [(Keyword.stdout, .mailbox stderrId)]).scopes, ⟨rfl, fun id apart => ?_⟩, rfl⟩
    rw [find?_stage _ apart, find?_stage _ apart]
  exact ⟨hostLaws_stage [], made, hidden, agree,
    callFunction_unaffected (hostLaws_stage []) made hidden agree 3⟩

end Greeting

/-! ## A function that only the host keeps -/

section Legacy

open CommandScript.Host

/-- A module that binds a name, lets the host keep a function that reads it, and then fails. -/
def failing : Script :=
  [.mk ⟨"let", rfl⟩ [.variable ⟨"word", rfl⟩, .text "hidden"],
    .mk ⟨"stash", rfl⟩ [.script [.mk ⟨"func", rfl⟩ [.symbol ⟨"tell", rfl⟩, .list [],
      .script [.mk ⟨"let", rfl⟩ [.variable ⟨"it", rfl⟩, .variable ⟨"word", rfl⟩]]]]],
    .mk ⟨"fail", rfl⟩ []]

/-- The machine after the module has failed to be imported. Its scope has the number 3, and the
module is not registered any more. -/
def aftermath : Machine Cell :=
  let modules : Loader.Memory := ⟨[("failing", .tree failing)]⟩
  let before : Machine Cell :=
    { Machine.new Settings.default (some (.ofFunction modules.load)) .nothing with
      processes := (["stash", "fetch"].filterMap process?).toArray
      scopes := outerScopes }
  (evalScript 9 [loading "failing" ⟨"failing", rfl⟩] ⟨1, mainModule⟩ before).machine

/-- The scope of the module that has failed. -/
def lostScope : ScopeId := 3

/-- The machine on which the scope of the module binds the name to something else. -/
def altered : Machine Cell :=
  { aftermath with
    scopes := aftermath.scopes.assign lostScope ⟨"word", rfl⟩ (.text "altered") }

/-- A function of the main module that calls what the host keeps. -/
def retell : Function where
  id := 1
  name := ⟨"retell", rfl⟩
  module := mainPath
  closure := 1
  params := []
  body := [.mk ⟨"let", rfl⟩ [.variable ⟨"kept", rfl⟩, .script [.mk ⟨"fetch", rfl⟩ []]],
    .mk ⟨"kept", rfl⟩ []]

/-- The scopes made before that of the module, the main module, and the processes. -/
def older : Set Node
  | .scope id => id < lostScope
  | .module id => id = mainModule
  | .process _ => True

/-- Whether a scope lies below an older one and binds mailboxes and processes only. -/
def leadsBack (scope : Scope Value) : Bool :=
  scope.parent.all (· < lostScope) &&
    scope.bindings.all fun binding => binding.2.kind == .mailbox || binding.2.kind == .process

/-- Of the older scopes the last is the block of the import; the others were there before. -/
theorem leadsBack_aftermath : ∀ id < lostScope,
    (aftermath.scopes.find? id).all leadsBack = true := by decide +kernel

/-- Nothing but its scope has to do with the main module, which has no functions. -/
theorem main_aftermath : (aftermath.module? mainModule).all
    (fun module => decide (module.scope < lostScope) && module.functions.isEmpty) = true := by
  decide +kernel

/-- Only the main module is registered after the failure. -/
theorem registry_aftermath : aftermath.registry = [(mainPath, mainModule)] := by decide +kernel

/-- A mailbox leads nowhere, and a process to what the host keeps only. -/
theorem nodes_subset_older {value : Value} (plain : value.kind = .mailbox ∨ value.kind = .process) :
    value.nodes ⊆ older := by
  intro node leads
  cases value with
  | mailbox => exact absurd leads (Set.notMem_empty node)
  | process => cases leads; trivial
  | _ => cases plain <;> contradiction

/-- From these scopes nothing leads out of them, but to processes. -/
theorem older_of_scope {id : ScopeId} {scope : Scope Value} (earlier : id < lostScope)
    (found : aftermath.scopes.find? id = some scope) :
    (∀ above ∈ scope.parent, above < lostScope) ∧
      ∀ binding ∈ scope.bindings, binding.2.nodes ⊆ older := by
  have back := leadsBack_aftermath id earlier
  rw [found, Option.all_some, leadsBack, Bool.and_eq_true, List.all_eq_true] at back
  refine ⟨fun above isParent => ?_, fun binding member => nodes_subset_older ?_⟩
  · rw [Option.mem_def.mp isParent] at back
    exact of_decide_eq_true back.1
  · simpa using back.2 binding member

/-- Through parents, bound values, closures, module scopes and function tables the call gets to
nothing else. -/
theorem older_of_reaches {node : Node}
    (reaches : aftermath.Reaches (fun _ _ => ∅) (CallRoot aftermath retell [] mainModule) node) :
    node ∈ older := by
  induction reaches with
  | root member =>
    cases member with
    | closure => exact (by decide : 1 < 3)
    | argument member =>
        obtain ⟨value, member, -⟩ := member
        cases member
    | module => rfl
    | loaded member =>
        rw [registry_aftermath] at member
        rw [List.mem_singleton.mp member]
        rfl
    | root => exact (by decide : 0 < 3)
  | parent below found above ih => exact (older_of_scope ih found).1 _ above
  | bound below found member leads ih => exact (older_of_scope ih found).2 _ member leads
  | moduleScope below found ih =>
      cases ih
      have main := main_aftermath
      rw [found, Option.all_some, Bool.and_eq_true, decide_eq_true_iff] at main
      exact main.1
  | table below found member ih =>
      cases ih
      have main := main_aftermath
      rw [found, Option.all_some, Bool.and_eq_true, List.isEmpty_iff] at main
      rw [main.2] at member
      cases member
  | kept below member ih => cases member

/-- The text that a run has yielded. -/
def Run.text? : Run Cell Value → Option String
  | .ended (.ok value) _ => value.text?
  | _ => none

/-- It matters that reachable processes lead to what the host keeps for them. Where they lead nowhere
the call does not reach the scope of the module, and yet yields what that scope binds. -/
theorem retell_reads_lost_scope :
    lostScope < aftermath.scopes.next ∧
      ¬aftermath.Reaches (fun _ _ => ∅) (CallRoot aftermath retell [] mainModule)
        (.scope lostScope) ∧
      aftermath.AgreesOff lostScope altered ∧
      (callFunction (evalScript 9) retell [] mainModule aftermath).text? = some "hidden" ∧
      (callFunction (evalScript 9) retell [] mainModule altered).text? = some "altered" := by
  -- All that the call reaches was made before the scope of the module.
  refine ⟨by decide +kernel, fun reaches => Nat.lt_irrefl _ (older_of_reaches reaches), ?_,
    by decide +kernel, by decide +kernel⟩
  refine ⟨altered.scopes, ⟨Scopes.next_assign .., fun id apart => ?_⟩, rfl⟩
  exact Scopes.find?_assign_of_ne _ _ _ apart

end Legacy

end CommandScript.Evaluation
