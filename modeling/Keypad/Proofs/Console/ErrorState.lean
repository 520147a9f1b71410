import Keypad.Console.Session
import Keypad.Proofs.Machine.Loading

/-!
# The error state

In the error state nothing is left of what was typed, and nothing can be typed: every command leaves
the machine as it is, but for the variables, until it is cleared or a past calculation is loaded.
Commands are the actions of the machine and what the console adds to them; a run of commands goes on
after one that is refused.

* `Sound`               — what holds of every machine that commands lead to.
* `carryOut_inert`      — a command that does not recover leaves all but the variables alone.
* `carryOut_recovers`   — clearing and loading lead out of the error state.
* `carryOutEach_failed` — the error state on every machine that commands lead to.
-/

namespace Keypad

/-- The variables after a command, on its own account: only saving and forgetting touch them. -/
def Variables.after (vs : Variables) : Command → Variables
  | .act (.save label value unit color) =>
    match vs.save label value unit color with
    | .ok vs' => vs'
    | .error _ => vs
  | .act (.forget label) => vs.delete label
  | _ => vs

/-- Whether the command leads out of the error state: it clears the machine, or loads a calculation
that is there. -/
def Command.Recovers (h : History) : Command → Prop
  | .act .clear => True
  | .act (.load index) => 0 ≤ index ∧ index < h.entries.length
  | _ => False

namespace Machine

open Outcome

/-- Nothing is left of what was typed if the last calculation failed, and there is no intermediate
result and hence no notice. -/
structure Sound (m : Machine) : Prop where
  inError : m.failed = true → m.InError
  intermediate : m.intermediate = false
  notice : m.notice = none

variable {m : Machine}

/-- A new machine is sound. -/
theorem sound_new (limit : Nat) : (new (.ofLimit limit)).Sound where
  inError h := by cases h
  intermediate := rfl
  notice := rfl

/-- A move that ends in the error state leaves nothing of what was typed. -/
theorem Move.inError {p : String → Prop} {m' : Machine} (h : Move p m m')
    (hm : m.failed = true → m.InError) : m'.failed = true → m'.InError := by
  intro hm'
  -- in the error state a move is that into it, or it changes notice and variables only
  rcases h.of_failed hm' with rfl | ⟨hfailed, notice, store, rfl⟩
  · exact inError_enterError m
  · have hm := hm hfailed
    exact ⟨hfailed, hm.buffer, hm.naming, hm.committed, hm.settled⟩

/-- A calculation leaves no intermediate result and no notice. -/
theorem calculate_quiets (hm : m.intermediate = false) :
    m.calculate.machine.intermediate = false ∧ m.calculate.machine.notice = none := by
  have hends := m.calculates
  generalize m.calculate.machine = m' at hends ⊢
  generalize m.calculate.fault = fault at hends
  cases hends with
  | ignored _ => exact ⟨hm, rfl⟩
  | nothing _ _ => exact ⟨hm, rfl⟩
  | fail _ h => exact ⟨rfl, h.notice⟩
  | refuse _ h _ _ => exact ⟨h.intermediate.trans hm, h.notice⟩
  | conclude _ _ h _ _ => exact ⟨rfl, h.notice⟩

/-- Every action leaves a sound machine sound. -/
theorem Sound.perform (h : m.Sound) (action : Action) : (m.perform action).machine.Sound := by
  have herror := (perform_moves (action.handsBack_any m)).keep
    (P := fun m => m.failed = true → m.InError) (fun _ _ => Move.inError) h.inError
  -- all actions but the calculation only quiet the notice that was there
  by_cases haction : action = .calculate
  · subst haction
    obtain ⟨hintermediate, hnotice⟩ := calculate_quiets h.intermediate
    exact ⟨herror, hintermediate, hnotice⟩
  · have hframe := m.perform_frame haction
    exact ⟨herror, hframe.intermediate h.intermediate, hframe.notice h.intermediate h.notice⟩

/-! ## Nothing can be typed -/

/-- An action that the error state ignores changes nothing there. -/
theorem guarded_inert (hm : m.failed = true) (hnotice : m.notice = none) (name : String)
    (action : Machine → Outcome Event) : (m.guarded name action).machine = m := by
  rw [guarded_of_failed hm]
  exact show m.quiet = m by rw [quiet, ← hnotice]

theorem checking_inert {α : Type} {argument : Except Fault α} {action : α → Outcome Event}
    (h : ∀ a, (action a).machine = m) : (m.checking argument action).machine = m :=
  checking_elim (P := fun o => o.machine = m) (fun _ => rfl) fun a _ => h a

/-- In the error state an action that does not lead out of it touches the variables only. -/
theorem perform_inert (hm : m.failed = true) (hnotice : m.notice = none) {action : Action}
    (h : ¬(Command.act action).Recovers m.history) :
    (m.perform action).machine = { m with store := m.store.after (.act action) } := by
  have hguarded := guarded_inert hm hnotice
  cases action with
  | clear => exact absurd trivial h
  | load index => exact load_inert h
  | forget label => rfl
  | save label value unit color =>
    simp only [perform, save, checking, Variables.after]
    cases m.store.save label value unit color <;> rfl
  | digit key => exact checking_inert fun c => hguarded _ _
  | point => exact hguarded _ _
  | parenthesis mark => exact checking_inert fun mark => hguarded _ _
  | operator spelling => exact checking_inert fun op => hguarded _ _
  | calculate => exact hguarded _ _
  | delete => exact hguarded _ _
  | toggleSign => exact hguarded _ _
  | percentage => exact hguarded _ _
  | label target text color =>
    exact checking_inert fun target => checking_inert fun color => hguarded _ _
  | unit target text => exact checking_inert fun target => hguarded _ _
  | retrieve label => exact checking_inert fun v => hguarded _ _
  | retrieveSaved value naming => exact checking_inert fun naming => hguarded _ _

end Machine

namespace Console

open Machine Outcome

/-- The machine after a run of commands, refused ones among them. -/
def carryOutEach (m : Machine) (commands : List Command) : Machine :=
  commands.foldl (fun m command => (carryOut m command).machine) m

variable {m : Machine}

/-- A command changes the machine by actions only. -/
theorem carryOut_keep {P : Machine → Prop} (hstep : ∀ m action, P m → P (m.perform action).machine)
    (hm : P m) (command : Command) : P (carryOut m command).machine := by
  cases command with
  | act action => exact hstep m action hm
  | store name =>
    rw [carryOut, keep]
    split
    · exact hm
    · have hsave := hstep m (.save name m.buffer m.naming.unit (m.naming.color.map Color.name)) hm
      exact andThen_elim hsave fun _ => hstep _ _ hsave
  | showHistory => exact hm
  | showVariables => exact hm
  | showHelp => exact hm

/-- Every run of commands leaves a sound machine sound. -/
theorem carryOutEach_sound (hm : m.Sound) (commands : List Command) :
    (carryOutEach m commands).Sound := by
  induction commands generalizing m with
  | nil => exact hm
  | cons command commands ih =>
    exact ih (carryOut_keep (P := Machine.Sound) (fun _ action h => h.perform action) hm command)

/-- In the error state a command that does not lead out of it touches the variables only. -/
theorem carryOut_inert (hm : m.failed = true) (hnotice : m.notice = none) {command : Command}
    (h : ¬command.Recovers m.history) :
    (carryOut m command).machine = { m with store := m.store.after command } := by
  cases command with
  | act action => exact perform_inert hm hnotice h
  | store name =>
    rw [carryOut, keep, if_pos hm]
    rfl
  | showHistory => rfl
  | showVariables => rfl
  | showHelp => rfl

/-- And so does a run of such commands. -/
theorem carryOutEach_inert (hm : m.failed = true) (hnotice : m.notice = none)
    {commands : List Command} (h : ∀ command ∈ commands, ¬command.Recovers m.history) :
    carryOutEach m commands = { m with store := commands.foldl Variables.after m.store } := by
  induction commands generalizing m with
  | nil => rfl
  | cons command commands ih =>
    rw [carryOutEach, List.foldl_cons, carryOut_inert hm hnotice (h command List.mem_cons_self)]
    exact ih hm hnotice fun command hcommand => h command (List.mem_cons_of_mem _ hcommand)

/-- Clearing, and loading a calculation that is there, lead out of the error state. -/
theorem carryOut_recovers {command : Command} (h : command.Recovers m.history) :
    (carryOut m command).fault = none ∧ (carryOut m command).machine.failed = false := by
  cases command with
  | act action =>
    cases action with
    | clear => exact ⟨rfl, rfl⟩
    | load index =>
      obtain ⟨hindex, hlt⟩ := h
      obtain ⟨i, rfl⟩ := Int.eq_ofNat_of_zero_le hindex
      have hi : i < m.history.entries.length := Int.ofNat_lt.1 hlt
      rw [carryOut, act, perform, load_of_lt m hi]
      exact ⟨rfl, rfl⟩
    | _ => exact absurd h id
  | _ => exact absurd h id

/-- On every machine in the error state that a run of commands leads to: nothing is left of what
was typed, and nothing is shown; a run of commands that neither clears it nor loads a calculation
that is there does what its savings and forgettings do to the variables, and nothing else; and a
command that does one of the two leads out of the error state. -/
theorem carryOutEach_failed (limit : Nat) {before : List Command}
    (hm : (carryOutEach (new (.ofLimit limit)) before).failed = true) :
    let m := carryOutEach (new (.ofLimit limit)) before
    m.InError ∧ m.expression = .ok [] ∧
      (∀ after : List Command, (∀ command ∈ after, ¬command.Recovers m.history) →
        carryOutEach m after = { m with store := after.foldl Variables.after m.store }) ∧
      ∀ command : Command, command.Recovers m.history →
        (carryOut m command).fault = none ∧ (carryOut m command).machine.failed = false := by
  intro m
  have hsound := carryOutEach_sound (sound_new limit) before
  have herror := hsound.inError hm
  refine ⟨herror, ?_, fun after h => carryOutEach_inert hm hsound.notice h,
    fun command h => carryOut_recovers h⟩
  rw [expression_of_settled herror.settled, herror.committed]

/-- A calculation that is kept, and a division by zero. -/
def failingCommands : List Command :=
  [.act (.digit "1"), .act .calculate, .act (.operator "/"), .act (.digit "0"), .act .calculate]

/-- Commands that are ignored or refused in the error state, among them two that keep a number and
one that gives it up. -/
def inertCommands : List Command :=
  [.act (.digit "7"), .act (.digit "seven"), .store "sum", .act (.save "rate" "1.5" none none),
    .act (.retrieve "rate"), .act (.save "" "2" none none), .act (.load 1), .act (.load (-1)),
    .act (.save "tax" "0.2" none none), .act (.forget "rate"), .showHistory]

/-- After a division by zero those commands keep one number and nothing else. -/
theorem carryOutEach_failed_of_division :
    (carryOutEach (new (.ofLimit 0)) failingCommands).failed = true ∧
      (∀ command ∈ inertCommands,
        ¬command.Recovers (carryOutEach (new (.ofLimit 0)) failingCommands).history) ∧
      (Command.act (.load 0)).Recovers (carryOutEach (new (.ofLimit 0)) failingCommands).history ∧
      carryOutEach (carryOutEach (new (.ofLimit 0)) failingCommands) inertCommands =
        { carryOutEach (new (.ofLimit 0)) failingCommands with
          store := inertCommands.foldl Variables.after
            (carryOutEach (new (.ofLimit 0)) failingCommands).store } := by
  have hm : (carryOutEach (new (.ofLimit 0)) failingCommands).failed = true := by decide +kernel
  have hlength : (carryOutEach (new (.ofLimit 0)) failingCommands).history.entries.length = 1 := by
    decide +kernel
  have hinert : ∀ command ∈ inertCommands,
      ¬command.Recovers (carryOutEach (new (.ofLimit 0)) failingCommands).history := by
    simp [inertCommands, Command.Recovers, hlength]
  refine ⟨hm, hinert, ⟨by decide, by rw [hlength]; decide⟩, ?_⟩
  exact (carryOutEach_failed 0 hm).2.2.1 inertCommands hinert

end Console

end Keypad
