import CommandScript.Proofs.Evaluation.SecondCheck
import CommandScript.Proofs.Evaluation.Termination
import CommandScript.Proofs.Host.Rooting

/-!
# Scripts without functions come to an end

If neither a script nor any of the modules in memory defines a function, and no module has one yet,
the script comes to an end wherever it is run: at the start of a session, and whatever an honest host
has done by then. It does so whichever modules load each other, since a module is registered before
its script runs, and however its loops are nested, since their bounds are evaluated first.
-/

namespace CommandScript.Host

open CommandScript.Machine CommandScript.Evaluation CommandScript.Source

variable {Host : Type} {keeps : Keeps Host} {memory : Loader.Memory}

/-- If there are no functions and modules are loaded from memory, every script that defines no
function comes to an end with a value or a failure. The depth suffices if it has room for the script
and for one module inside another until there are none left. -/
def EndsPlainScripts (keeps : Keeps Host) (memory : Loader.Memory) (machine : Machine Host) : Prop :=
  machine.HasEmptyTables → machine.LoadsFrom memory →
    ∀ script, Script.definesNone script = true → ∀ place limit,
      Script.nest script + memory.modules.length * memory.nest ≤ limit →
      (evalScript limit script place machine).Completes (bare keeps memory) Value.IsPlain machine

/-- On a sound machine scripts without functions end. -/
theorem endsPlainScripts_of_sound (plain : memory.definesNone = true) {machine : Machine Host}
    (sound : machine.Sound keeps True) : EndsPlainScripts keeps memory machine := by
  intro tables loads script ordinary place limit enough
  have functionless := sound.functionless tables loads
  have room : Room memory machine (Script.nest script) limit :=
    (Nat.add_le_add_left (Nat.mul_le_mul_right _ (card_unregistered_le memory machine)) _).trans
      enough
  exact completesWithin_evalScript plain limit ⟨ordinary, Nat.le_refl _⟩ room place machine
    functionless (.refl machine)

/-- What brings scripts without functions to an end when a host plays moves. -/
structure Terminates (keeps : Keeps Host) (memory : Loader.Memory) (depth : Nat)
    (settings : Settings) (host : Host) (moves : List (Move Host)) : Prop where
  start : EndsPlainScripts keeps memory
    (Machine.new settings (some (.ofFunction memory.load)) host)
  throughout : Throughout depth (freshSession settings (some (.ofFunction memory.load)) host) moves
    ⟨EndsPlainScripts keeps memory, fun _ _ => True⟩
  /-- A loop that yields its results has run its body as often as the bounds told, which were
  evaluated first. -/
  loops : ∀ (evaluate : Evaluator Host) frame counter first last body machine pauses value final,
    (runLoop evaluate frame counter first last body machine).Course pauses (.ok value) final →
    ∃ lower upper middle before early late, ∃ results : Sequence Argument,
      (numberOf evaluate frame.inside first machine).Course early (.ok lower) middle ∧
        (numberOf evaluate frame.inside last middle).Course late (.ok upper) before ∧
        value = .list results ∧ results.size = loopCount lower upper
  /-- On the machine on which the script of a module starts, the module is there already: no script
  is run to load it again. -/
  cut : ∀ (evaluate : Evaluator Host) path (machine : Machine Host), machine.loaded? path = none →
    loadModule evaluate path (machine.addModule path) =
      .ended (.ok machine.modules.size) (machine.addModule path)

/-- Whatever moves an honest host plays, scripts without functions come to an end, those of modules
that import each other as well. -/
theorem play_terminates (settings : Settings) (host : Host) (depth : Nat) (moves : List (Move Host))
    (plain : memory.definesNone = true)
    (honest : HonestHost keeps (evalScript depth)
      (freshSession settings (some (.ofFunction memory.load)) host) moves) :
    Terminates keeps memory depth settings host moves where
  start := endsPlainScripts_of_sound plain (sound_new (fun _ => honest.laws) fun _ => honest.kept)
  throughout := by
    have sure : Watch.Sure ⟨EndsPlainScripts keeps memory, fun _ _ => True⟩ keeps True :=
      ⟨endsPlainScripts_of_sound plain, fun _ _ => trivial⟩
    exact throughout_of_sure sure fun _ => honest
  loops _ _ _ _ _ _ _ _ _ _ course := runLoop_counted course
  cut evaluate path machine absent := by
    rw [loadModule, loaded?_addModule, absent, if_pos rfl]
    rfl

/-! ## Modules that load each other -/

/-- Two modules that load each other, one of which loads itself as well. -/
def circle : Loader.Memory :=
  ⟨[("here", .source "import [[\"there\" there]]"),
    ("there", .source "import [[\"here\" back] [\"there\" self]]")]⟩

/-- A script that enters the circle. -/
def enterCircle : Script :=
  (Script.parse "do \x7b import [[\"here\" here]] \x7d").toOption.getD []

/-- Two modules that import each other are loaded to the end. -/
theorem play_terminates_circle :
    circle.definesNone = true ∧
      HonestHost cellKeeps (evalScript 9)
        (freshSession Settings.default (some (.ofFunction circle.load)) .nothing)
        [.run enterCircle] ∧
      Terminates cellKeeps circle 9 Settings.default Value.nothing [.run enterCircle] := by
  have plain : circle.definesNone = true := by decide +kernel
  have honest : HonestHost cellKeeps (evalScript 9)
      (freshSession Settings.default (some (.ofFunction circle.load)) .nothing)
      [.run enterCircle] := by
    refine ⟨hostLaws_of_standard nofun ?_, fun _ scope => Set.notMem_empty _, nofun, trivial⟩
    rintro load ⟨⟩ path cell
    rfl
  exact ⟨plain, honest,
    play_terminates Settings.default Value.nothing 9 [.run enterCircle] plain honest⟩

/-- The script ends, and all that is registered is there once. -/
example :
    let start : Machine Cell :=
      Machine.new Settings.default (some (.ofFunction circle.load)) Value.nothing
    let run := evalScript (Script.nest enterCircle + 2 * circle.nest) enterCircle ⟨1, mainModule⟩
      start
    run.ending? = some (.ok ()) ∧
      run.machine.registry.map Prod.fst = [mainPath, "here", "there"] := by
  decide +kernel

end CommandScript.Host
