import CommandScript.Proofs.Evaluation.Rejection
import CommandScript.Proofs.Host.Rooting

/-!
# Rejected commands have no effect

A command that is rejected leaves the machine as it was but for its own empty block, on any machine
and at any place. That goes for a selection with one clause out of order and for a list of modules
with one entry out of order, whatever stands before them. As long as a host makes up no functions,
what such a command finds from its block is what the scope of the caller finds.
-/

namespace CommandScript.Host

open CommandScript.Machine CommandScript.Evaluation CommandScript.Source

variable {Host : Type}

/-- A command finds from its block the names that the scope of its caller finds. -/
def SeesAsCaller (machine : Machine Host) : Prop :=
  ∀ (place : Place) name, place.scope < machine.scopes.next →
    place.finds? machine name = machine.scopes.lookup place.scope name

/-- On a sound machine a new block sees what its parent sees. -/
theorem seesAsCaller_of_sound {keeps : Keeps Host} {machine : Machine Host}
    (sound : machine.Sound keeps True) : SeesAsCaller machine :=
  fun _ name made => (sound.supplied trivial).ordered.lookup_addBlock made name

/-- What becomes of the commands that are rejected, when a host plays moves. -/
structure RejectsEarly (keeps : Keeps Host) (depth : Nat) (session : Session Host)
    (moves : List (Move Host)) : Prop where
  refused : ∀ (machine : Machine Host) (place : Place) (command : Command) (error : EvalError),
    Rejected machine place command error → Refused machine place command error
  /-- No clause before the one that is out of order is looked at. -/
  clauses : ∀ (machine : Machine Host) (place : Place) (head : Symbol) (before after : Script)
    (bad : Command), head.text = Builtin.select.name → (∀ clause, ¬IsClause bad clause) →
    Refused machine place (.mk head [.script (before ++ bad :: after)]) (.usage (.builtin .select))
  /-- No module before the entry that is out of order is loaded. -/
  entries : ∀ (machine : Machine Host) (place : Place) (head : Symbol)
    (before after : List Argument) (bad : Argument), head.text = Builtin.load.name →
    (∀ entry, ¬IsEntry bad entry) →
    Refused machine place (.mk head [.list (before ++ bad :: after)]) (.usage (.builtin .load))
  seen : HonestHost keeps (evalScript depth) session moves →
    Throughout depth session moves ⟨SeesAsCaller, fun _ _ => True⟩

/-- Whatever moves a host plays, a command that is rejected does nothing but make its block, and
calls for nothing outside of the machine. -/
theorem play_rejectsEarly (settings : Settings) (loader : Option (Loader Host)) (host : Host)
    (keeps : Keeps Host) (depth : Nat) (moves : List (Move Host)) :
    RejectsEarly keeps depth (freshSession settings loader host) moves where
  refused _ _ _ _ rejected := rejected.refused
  clauses _ _ _ _ _ _ called malformed :=
    (Rejected.malformed called (not_shaped_select List.mem_append_cons_self malformed)).refused
  entries _ _ _ _ _ _ called malformed :=
    (Rejected.malformed called (not_shaped_load List.mem_append_cons_self malformed)).refused
  seen honest := by
    have sure : Watch.Sure ⟨SeesAsCaller, fun _ _ => True⟩ keeps True :=
      ⟨seesAsCaller_of_sound, fun _ _ => trivial⟩
    exact throughout_of_sure sure fun _ => honest

/-! ## A selection that is not read to its end -/

/-- The first clause would fill the cell; the second has no body. -/
def halfSelection : Command :=
  .mk ⟨"switch", by decide⟩
    [.script [.mk ⟨"case", by decide⟩
        [.script [.mk ⟨"stash", by decide⟩ [.text "seen"]], .script []],
      .mk ⟨"case", by decide⟩ [.script []]]]

/-- A selection with half a clause is rejected in the session with a cell. -/
theorem play_rejectsEarly_cell :
    HonestHost cellKeeps (evalScript 9) (freshSession Settings.default none .nothing) cellMoves ∧
      Rejected (Machine.new Settings.default none Value.nothing) ⟨1, mainModule⟩ halfSelection
        (.usage (.builtin .select)) ∧
      RejectsEarly cellKeeps 9 (freshSession Settings.default none .nothing) cellMoves := by
  refine ⟨honestHost_cell 9, ?_,
    play_rejectsEarly Settings.default none .nothing cellKeeps 9 cellMoves⟩
  have unclosed (clause : Clause) : ¬IsClause (.mk ⟨"case", by decide⟩ [.script []]) clause := by
    rintro (_ | word)
    exact absurd word (by decide)
  exact .malformed rfl (not_shaped_select (List.mem_cons_of_mem _ List.mem_cons_self) unclosed)

end CommandScript.Host
