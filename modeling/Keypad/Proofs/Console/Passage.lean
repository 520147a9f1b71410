import Keypad.Console.Session
import Keypad.Proofs.Machine.Moves

/-!
# The machines that a run passes through

A run of the console is put together on four levels: lines, their lexemes, the commands of these and
the actions of a command. On each of them the steps are taken one after the other until one is
refused, so one function lists the machines on the way (`trail`), given those within a step. What is
listed for a run ends with the machine of the run, and what every action keeps holds of all of it.

* `getLastD_passed`   — the last of the machines is the one that the run comes to.
* `forall_mem_passed` — what holds of the first machine and is kept by commands holds of them all.
-/

namespace Keypad.Console

open Machine Machine.Outcome

section Trail

variable {α ε : Type}

/-- The machines that steps pass through one after the other, until one is refused. -/
def trail (step : Machine → α → Outcome ε) (within : Machine → α → List Machine) (m : Machine) :
    List α → List Machine
  | [] => []
  | a :: as =>
    within m a ++ if (step m a).fault = none then trail step within (step m a).machine as else []

variable {step : Machine → α → Outcome ε} {within : Machine → α → List Machine}

/-- The machines within a step end with the one that it comes to. -/
def EndsIn (step : Machine → α → Outcome ε) (within : Machine → α → List Machine) : Prop :=
  ∀ m a, (within m a).getLastD m = (step m a).machine

/-- The last machine of two stretches is that of the second, if it has any. -/
theorem getLastD_append (ms ms' : List Machine) (m : Machine) :
    (ms ++ ms').getLastD m = ms'.getLastD (ms.getLastD m) := by
  induction ms generalizing m with
  | nil => rfl
  | cons m' ms ih => rw [List.cons_append, List.getLastD_cons, List.getLastD_cons, ih]

/-- The machines of a trail end with that of the run, if the steps are taken like those of the run.
-/
theorem getLastD_trail (hends : EndsIn step within) (run : Machine → List α → Outcome ε)
    (hnil : ∀ m, run m [] = done m)
    (hcons : ∀ m a as, run m (a :: as) = (step m a).andThen fun m => run m as) (m : Machine)
    (as : List α) : (trail step within m as).getLastD m = (run m as).machine := by
  induction as generalizing m with
  | nil =>
    rw [hnil]
    rfl
  | cons a as ih =>
    rw [trail, getLastD_append, hends, hcons]
    -- a trail goes on exactly if the run does
    cases hfault : (step m a).fault with
    | none =>
      rw [if_pos rfl, ih, andThen_of_done hfault]
    | some fault =>
      rw [if_neg (Option.some_ne_none fault), andThen_of_fault hfault]
      rfl

/-- What holds of a machine and is kept within every step holds all along. -/
theorem forall_mem_trail (hends : EndsIn step within) {P : Machine → Prop} {as : List α}
    (hwithin : ∀ a ∈ as, ∀ m, P m → ∀ m' ∈ within m a, P m') {m : Machine} (hm : P m) :
    ∀ m' ∈ trail step within m as, P m' := by
  induction as generalizing m with
  | nil => exact List.forall_mem_nil _
  | cons a as ih =>
    obtain ⟨ha, has⟩ := List.forall_mem_cons.1 hwithin
    refine List.forall_mem_append.2 ⟨ha m hm, ?_⟩
    split
    · have hlast : P (step m a).machine := by
        rw [← hends]
        exact List.forall_mem_cons.2 ⟨hm, ha m hm⟩ _ List.getLastD_mem_cons
      exact ih has hlast
    · exact List.forall_mem_nil _

end Trail

/-! ## Level by level -/

/-- The actions of a command. Nothing is kept in the error state. -/
def actionsOf (m : Machine) : Command → List Action
  | .act action => [action]
  | .store name =>
    if m.failed then []
    else
      [.save name m.buffer m.naming.unit (m.naming.color.map Color.name),
        .label Target.current.name (some name) .keep]
  | .showHistory | .showVariables | .showHelp => []

/-- The machine that an action leaves. -/
def passedByAction (m : Machine) (action : Action) : List Machine := [(act m action).machine]

/-- The machines that a command passes through. -/
def passedByCommand (m : Machine) (command : Command) : List Machine :=
  trail act passedByAction m (actionsOf m command)

/-- The machines that a lexeme passes through. -/
def passedByLexeme (m : Machine) (lexeme : Lexeme) : List Machine :=
  match lexeme.commands with
  | .error _ => []
  | .ok commands => trail carryOut passedByCommand m commands

/-- The machines that a line passes through. -/
def passedByLine (m : Machine) (line : String) : List Machine :=
  trail carryOutLexeme passedByLexeme m (Lexeme.scan line.toList).1

/-- The machines that a run over lines passes through. -/
def passed (m : Machine) (lines : List String) : List Machine :=
  trail runLine passedByLine m lines

/-! ## They are those of the run -/

variable {m : Machine}

/-- Actions in order, until one is refused. -/
def actAll (m : Machine) : List Action → Outcome Emission
  | [] => done m
  | action :: actions => (act m action).andThen fun m => actAll m actions

/-- What only prints leaves the machine. -/
theorem andThen_machine {o : Outcome Emission} {next : Machine → Outcome Emission}
    (hnext : ∀ m, (next m).machine = m) : (o.andThen next).machine = o.machine :=
  andThen_elim (P := fun m => m = o.machine) rfl fun _ => hnext _

/-- A command is its actions. -/
theorem carryOut_machine (m : Machine) (command : Command) :
    (carryOut m command).machine = (actAll m (actionsOf m command)).machine := by
  cases command with
  | act action => exact (andThen_machine fun _ => rfl).symm
  | store name =>
    rw [carryOut, keep, actionsOf]
    split
    · rfl
    · have hlabel (m : Machine) (action : Action) :
          (actAll m [action]).machine = (act m action).machine := andThen_machine fun _ => rfl
      rw [actAll]
      generalize act m (.save name m.buffer m.naming.unit (m.naming.color.map Color.name)) = saved
      cases hfault : saved.fault with
      | none => rw [andThen_of_done hfault, andThen_of_done hfault, hlabel]
      | some fault => rw [andThen_of_fault hfault, andThen_of_fault hfault]
  | showHistory => rfl
  | showVariables => rfl
  | showHelp => rfl

/-- Telling a user of a fault leaves the machine. -/
theorem told_machine (o : Outcome Emission) : (told o).machine = o.machine := by
  unfold told
  split
  · rfl
  · split <;> rfl

theorem redraw_machine (m : Machine) : (redraw m).machine = m := by
  unfold redraw
  split <;> rfl

/-- A line leaves the machine that its lexemes leave. -/
theorem runLine_machine (m : Machine) (line : String) :
    (runLine m line).machine = (carryOutLexemes m (Lexeme.scan line.toList).1).machine :=
  calc (runLine m line).machine = (told (feed m line)).machine := andThen_machine redraw_machine
    _ = (feed m line).machine := told_machine _
    _ = (carryOutLexemes m (Lexeme.scan line.toList).1).machine := andThen_machine fun _ => rfl

theorem endsIn_action : EndsIn act passedByAction := fun _ _ => rfl

/-- What a command passes through ends with the machine that it leaves. -/
theorem endsIn_command : EndsIn carryOut passedByCommand := by
  intro m command
  rw [carryOut_machine]
  exact getLastD_trail endsIn_action actAll (fun _ => rfl) (fun _ _ _ => rfl) m _

/-- What a lexeme passes through ends with the machine that it leaves. -/
theorem endsIn_lexeme : EndsIn carryOutLexeme passedByLexeme := by
  intro m lexeme
  unfold carryOutLexeme passedByLexeme
  cases lexeme.commands with
  | error fault => rfl
  | ok commands =>
    exact getLastD_trail endsIn_command carryOutAll (fun _ => rfl) (fun _ _ _ => rfl) m commands

/-- What a line passes through ends with the machine that it leaves. -/
theorem endsIn_line : EndsIn runLine passedByLine := by
  intro m line
  rw [runLine_machine]
  exact getLastD_trail endsIn_lexeme carryOutLexemes (fun _ => rfl) (fun _ _ _ => rfl) m _

/-- The last of the machines is the one that the run comes to. -/
theorem getLastD_passed (m : Machine) (lines : List String) :
    (passed m lines).getLastD m = (execute m lines).machine :=
  getLastD_trail endsIn_line execute (fun _ => rfl) (fun _ _ _ => rfl) m lines

/-- A run passes through a machine for every key. -/
example : (passed (new (.ofLimit 0)) ["0.001%", ".5<"]).map Machine.buffer =
    ["0", "0.", "0.0", "0.00", "0.001", "1e-05", "1e-05.", "1e-05.5", "1"] := by decide +kernel

/-! ## What holds of them -/

/-- What is kept by the actions of commands that lines stand for holds of all machines on the
way. -/
theorem forall_mem_passed {P : Machine → Prop}
    (hstep : ∀ lexeme commands, Lexeme.commands lexeme = .ok commands → ∀ command ∈ commands,
      ∀ m, P m → ∀ action ∈ actionsOf m command, ∀ m, P m → P (m.perform action).machine)
    (hm : P m) (lines : List String) : ∀ m' ∈ passed m lines, P m' := by
  have hlexeme (lexeme : Lexeme) (m : Machine) (hm : P m) :
      ∀ m' ∈ passedByLexeme m lexeme, P m' := by
    unfold passedByLexeme
    split
    · exact List.forall_mem_nil _
    · next commands hcommands =>
      -- commands and their actions are trails within one another
      refine forall_mem_trail endsIn_command (fun command hcommand m hm => ?_) hm
      refine forall_mem_trail endsIn_action (fun action haction m' hm' => ?_) hm
      exact List.forall_mem_singleton.2 (hstep lexeme commands hcommands command hcommand m hm
        action haction m' hm')
  refine forall_mem_trail endsIn_line (fun line _ m hm => ?_) hm
  exact forall_mem_trail endsIn_lexeme (fun lexeme _ => hlexeme lexeme) hm

end Keypad.Console
