import Keypad.Proofs.Machine.Moves

/-!
# What actions leave alone

What an action leaves alone is said by a relation of the machines before and after it. `Framing`
lists what the relation has to allow for all the actions to be framed by it that only type
(`Framing.perform`); the others have to be looked at one by one.

Only `calculate` adds to the history, and a notice is put up only where an intermediate result would
be edited. Every other action leaves the history as it is, and a machine that holds no intermediate
result comes to hold none and keeps quiet (`perform_frame`).
-/

namespace Keypad

/-- Whether the action only types, takes back or brings back a number or a row. -/
def Action.Types : Action → Prop
  | .calculate | .label _ _ _ | .unit _ _ | .save _ _ _ _ | .forget _ | .retrieve _
  | .retrieveSaved _ _ => False
  | _ => True

namespace Machine

open Outcome

/-- A relation of machines goes from each to itself and along chains, and allows what the actions
are made of that type a number or a row. -/
structure Framing (R : Machine → Machine → Prop) : Prop where
  refl : ∀ m, R m m
  trans : ∀ {m m' m''}, R m m' → R m' m'' → R m m''
  quiet : ∀ m, R m m.quiet
  typeKey : ∀ m key, R m (m.typeKey key)
  retext : ∀ (m : Machine) (text : String), R m { m with buffer := text }
  row : ∀ (m : Machine) (tokens : Expression) (ident : Nat) (settled : Bool),
    R m { m with committed := tokens, nextIdent := ident, settled := settled }
  appendOperator : ∀ m op, R m (m.appendOperator op)
  enterError : ∀ m, R m m.enterError
  cleared : ∀ m, R m m.cleared

variable {m m' m'' : Machine}

namespace Framing

variable {R : Machine → Machine → Prop}

/-! ## How actions are put together -/

/-- A refused argument leaves everything alone. -/
theorem checking (hR : Framing R) {α : Type} {argument : Except Fault α}
    {action : α → Outcome Event} (h : ∀ a, R m (action a).machine) :
    R m (m.checking argument action).machine :=
  checking_elim (P := fun o => R m o.machine) (fun _ => hR.refl m) fun a _ => h a

/-- A guarded action is framed if the action is, since the notice may be taken down. -/
theorem guarded (hR : Framing R) {name : String} {action : Machine → Outcome Event}
    (h : ∀ m, R m (action m).machine) : R m (m.guarded name action).machine := by
  refine hR.trans (hR.quiet m) ?_
  exact guarded_elim (P := fun o => R m.quiet o.machine) (fun _ => hR.refl _) fun _ => h _

theorem andThen (hR : Framing R) {o : Outcome Event} {next : Machine → Outcome Event}
    (h : R m o.machine) (hnext : ∀ m, R m (next m).machine) : R m (o.andThen next).machine :=
  andThen_elim h fun _ => hR.trans h (hnext _)

/-! ## Actions on the number and the row -/

/-- A commit concerns the row and the next ident. -/
theorem commit (hR : Framing R) (m : Machine) : R m m.commit.machine := by
  cases hread : Number.read m.buffer with
  | error fault =>
    rw [commit_of_error hread]
    exact hR.row m m.committed _ m.settled
  | ok x =>
    rw [commit_of_read hread]
    exact hR.row m _ _ m.settled

/-- A commit of what was typed frames the machine, left out where the number is settled. -/
theorem commitTyped (hR : Framing R) (m : Machine) : R m m.commitTyped.machine := by
  unfold Machine.commitTyped
  split
  · exact hR.refl m
  · exact hR.commit m

/-- An operator besides settles the number that it commits. -/
theorem typeOperator (hR : Framing R) (m : Machine) (op : Operator) :
    R m (m.typeOperator op).machine := by
  unfold Machine.typeOperator
  split
  · exact hR.andThen (hR.commit m) fun m => hR.appendOperator m op
  · split
    · exact hR.row m _ m.nextIdent m.settled
    · exact hR.appendOperator m op

/-- Marks are put into the row, with what they commit. -/
theorem typeMark (hR : Framing R) (m : Machine) (mark : Mark) :
    R m (m.typeMark mark).machine := by
  cases mark with
  | opening =>
    refine hR.andThen ?_ fun m => hR.row m _ m.nextIdent m.settled
    split
    · exact hR.typeOperator m _
    · exact hR.refl m
  | closing => exact hR.andThen (hR.commitTyped m) fun m => hR.row m _ m.nextIdent true

/-- A change of sign leads into the error state, or concerns the text only. -/
theorem toggleSign (hR : Framing R) (m : Machine) : R m m.toggleSign.machine := by
  refine hR.guarded fun m => ?_
  split
  · exact hR.enterError m
  · next x _ =>
    cases x.isZero with
    | true => exact hR.refl m
    | false => exact hR.retext m _

/-- A percentage frames the machine. -/
theorem percentage (hR : Framing R) (m : Machine) : R m m.percentage.machine := by
  refine hR.guarded fun m => ?_
  split
  · exact hR.enterError m
  · exact hR.retext m _

/-- Taking a key back concerns the text only. -/
theorem delete (hR : Framing R) (m : Machine) : R m m.delete.machine := by
  refine hR.guarded fun m => ?_
  dsimp only [done]
  split
  · exact hR.refl m
  · exact hR.retext m _

/-- A load clears the machine first, and then puts in a row and a text. -/
theorem load (hR : Framing R) (m : Machine) (index : Int) : R m (m.load index).machine := by
  unfold Machine.load
  split
  · exact hR.refl m
  · split
    · exact hR.refl m
    · -- clearing, the row and the text are three changes that the relation allows
      next entry _ =>
      have hrow := hR.row m.cleared entry.tokens m.nextIdent true
      exact hR.trans (hR.cleared m) (hR.trans hrow (hR.retext _ entry.result))

/-- Naming the last operand concerns the row only. -/
theorem editPrevious (hR : Framing R) (m : Machine) (change : Naming → Naming) (missing : Event) :
    R m (m.editPrevious change missing).machine := by
  unfold Machine.editPrevious
  split
  · exact hR.row m _ m.nextIdent m.settled
  · exact hR.refl m

/-- A calculation besides writes down its result. -/
theorem calculate (hR : Framing R) (hconcluded : ∀ m result, R m (m.concluded result))
    (m : Machine) : R m m.calculate.machine := by
  refine hR.guarded fun m => ?_
  have hcommit := hR.commitTyped m
  split
  · next h =>
    rw [h] at hcommit
    exact hR.trans hcommit (hR.enterError _)
  · refine hR.andThen hcommit fun m => ?_
    unfold evaluateCommitted
    split
    · exact hR.refl m
    · split
      · split
        · exact hR.enterError m
        · exact hR.refl m
      · exact hconcluded m _

/-- An action that only types is framed. -/
theorem perform (hR : Framing R) (m : Machine) {action : Action} (h : action.Types) :
    R m (m.perform action).machine := by
  cases action with
  | digit key => exact hR.checking fun c => hR.guarded fun m => hR.typeKey m c
  | point => exact hR.guarded fun m => hR.typeKey m '.'
  | parenthesis mark => exact hR.checking fun mark => hR.guarded fun m => hR.typeMark m mark
  | operator spelling => exact hR.checking fun op => hR.guarded fun m => hR.typeOperator m op
  | clear => exact hR.cleared m
  | delete => exact hR.delete m
  | toggleSign => exact hR.toggleSign m
  | percentage => exact hR.percentage m
  | load index => exact hR.load m index
  | _ => exact absurd h id

end Framing

/-! ## The history, intermediate results and notices -/

/-- From `m` to `m'` the history stays as it is, and if there is no intermediate result there comes
to be none and no notice is put up. -/
structure Frame (m m' : Machine) : Prop where
  history : m'.history = m.history
  intermediate : m.intermediate = false → m'.intermediate = false
  notice : m.intermediate = false → m.notice = none → m'.notice = none

namespace Frame

theorem refl (m : Machine) : Frame m m := ⟨rfl, id, fun _ h => h⟩

/-- Frames follow each other. -/
theorem trans (h : Frame m m') (h' : Frame m' m'') : Frame m m'' where
  history := h'.history.trans h.history
  intermediate hm := h'.intermediate (h.intermediate hm)
  notice hm hnotice := h'.notice (h.intermediate hm) (h.notice hm hnotice)

/-- A key leaves the history and the notice alone, and makes nothing intermediate. -/
theorem typeKey (m : Machine) (key : Char) : Frame m (m.typeKey key) := by
  unfold Machine.typeKey retype
  split
  · exact ⟨rfl, fun _ => rfl, fun _ h => h⟩
  · split
    · exact .refl m
    · exact ⟨rfl, id, fun _ h => h⟩

/-- The parts that actions are made of all change a machine as `Frame` says. -/
theorem framing : Framing Frame where
  refl := refl
  trans := trans
  quiet _ := ⟨rfl, id, fun _ _ => rfl⟩
  typeKey := typeKey
  retext _ _ := ⟨rfl, id, fun _ h => h⟩
  row _ _ _ _ := ⟨rfl, id, fun _ h => h⟩
  appendOperator _ _ := ⟨rfl, id, fun _ h => h⟩
  enterError _ := ⟨rfl, fun _ => rfl, fun _ h => h⟩
  cleared _ := ⟨rfl, fun _ => rfl, fun _ _ => rfl⟩

/-- An edit of the naming puts up a notice only on account of an intermediate result. -/
theorem editNaming (m : Machine) (target : Target) (change : Naming → Naming) (missing : Event) :
    Frame m (m.editNaming target change missing).machine := by
  cases target with
  | current =>
    simp only [Machine.editNaming, editBuffer]
    split
    · -- the one notice there is
      next h => exact ⟨rfl, id, fun hm => by cases h.symm.trans hm⟩
    · exact ⟨rfl, id, fun _ h => h⟩
  | previous => exact framing.editPrevious m change missing

/-- A number that was kept takes the place of an intermediate result. -/
theorem typeKept (m : Machine) (value : String) (naming : Naming) :
    Frame m (m.typeKept value naming).machine :=
  framing.guarded fun _ => ⟨rfl, fun _ => rfl, fun _ h => h⟩

end Frame

/-- Every action but `calculate` leaves the history alone, and puts up a notice only on account of
an intermediate result. -/
theorem perform_frame (m : Machine) {action : Action} (h : action ≠ .calculate) :
    Frame m (m.perform action).machine := by
  have hframing := Frame.framing
  cases action with
  | calculate => exact absurd rfl h
  | label target text color =>
    exact hframing.checking fun target => hframing.checking fun color =>
      hframing.guarded fun m => .editNaming m target _ _
  | unit target text =>
    exact hframing.checking fun target => hframing.guarded fun m => .editNaming m target _ _
  | save label value unit color => exact hframing.checking fun vs => ⟨rfl, id, fun _ h => h⟩
  | forget label => exact ⟨rfl, id, fun _ h => h⟩
  | retrieve label => exact hframing.checking fun v => .typeKept m _ _
  | retrieveSaved value naming => exact hframing.checking fun naming => .typeKept m _ _
  | _ => exact hframing.perform m trivial

end Machine

end Keypad
