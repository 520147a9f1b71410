import Keypad.Proofs.Machine.Log

/-!
# What an action leaves in the buffer

An action leaves the text in the buffer alone or changes it once, in one of the ways listed in
`TextMove`. Only a number that is recalled, out of the variables or from the host, can be anything:
every other text is typed, edited, computed, or one of the two that are fixed.

* `perform_textMove` — an action makes one of these moves.
-/

namespace Keypad

/-- The texts that the action can put into the buffer as they were kept. -/
def Action.Recalls (m : Machine) : Action → String → Prop
  | .retrieve name, value => ∃ v, m.findVariable name = .ok v ∧ v.value = value
  | .retrieveSaved saved _, value => value = saved
  | _, _ => False

namespace Machine

open Outcome

/-- What an action leaves of the text in the buffer, if it can recall the texts of which `p`
holds. -/
inductive TextMove (p : String → Prop) (text : String) : String → Prop where
  | keep : TextMove p text text
  | start : TextMove p text Buffer.start
  | fail : TextMove p text errorMarker
  | first {key : Char} (hkey : Buffer.isKey key = true) : TextMove p text (Buffer.first key)
  | type {key : Char} (hkey : Buffer.isKey key = true) : TextMove p text (Buffer.type text key)
  | erase : TextMove p text (Buffer.erase text)
  | sign {x : Double} (hread : Number.read text = .ok x) : TextMove p text (Buffer.toggleSign text)
  | percent (x : Double) : TextMove p text x.canonicalText
  /-- The text of a result is calculated now, or was kept in the history. -/
  | result (x : Double) : TextMove p text x.resultText
  | recalled {value : String} (h : p value) : TextMove p text value

variable {p : String → Prop} {m : Machine}

/-! ## How actions are put together -/

/-- A check of an argument makes no move of its own. -/
theorem checking_textMove {α : Type} {argument : Except Fault α} {action : α → Outcome Event}
    (h : ∀ a, argument = .ok a → TextMove p m.buffer (action a).machine.buffer) :
    TextMove p m.buffer (m.checking argument action).machine.buffer :=
  checking_elim (P := fun o => TextMove p m.buffer o.machine.buffer) (fun _ => .keep) h

/-- An action that the error state would ignore makes the move that it makes outside. -/
theorem guarded_textMove {name : String} {action : Machine → Outcome Event}
    (h : TextMove p m.quiet.buffer (action m.quiet).machine.buffer) :
    TextMove p m.buffer (m.guarded name action).machine.buffer :=
  guarded_elim (P := fun o => TextMove p m.buffer o.machine.buffer) (fun _ => .keep) fun _ => h

/-- Two actions that leave the text alone leave it alone together. -/
theorem andThen_buffer {o : Outcome Event} {next : Machine → Outcome Event}
    (h : o.machine.buffer = m.buffer) (hnext : ∀ m, (next m).machine.buffer = m.buffer) :
    (o.andThen next).machine.buffer = m.buffer :=
  andThen_elim (P := fun m' => m'.buffer = m.buffer) h fun _ => (hnext _).trans h

/-! ## The row and the naming -/

/-- A commit leaves the text alone, refused or not. -/
theorem commit_buffer (m : Machine) : m.commit.machine.buffer = m.buffer := by
  cases hread : Number.read m.buffer with
  | error fault => rw [commit_of_error hread]; rfl
  | ok x => rw [commit_of_read hread]; rfl

/-- A commit of what was typed leaves the text alone. -/
theorem commitTyped_buffer (m : Machine) : m.commitTyped.machine.buffer = m.buffer := by
  unfold commitTyped
  split
  · rfl
  · exact m.commit_buffer

/-- An operator leaves the text alone. -/
theorem typeOperator_buffer (m : Machine) (op : Operator) :
    (m.typeOperator op).machine.buffer = m.buffer := by
  unfold typeOperator
  split
  · exact andThen_buffer m.commit_buffer fun _ => rfl
  · split <;> rfl

/-- A parenthesis leaves the text alone. -/
theorem typeMark_buffer (m : Machine) (mark : Mark) :
    (m.typeMark mark).machine.buffer = m.buffer := by
  cases mark with
  | opening =>
    refine andThen_buffer ?_ fun _ => rfl
    split
    · exact m.typeOperator_buffer _
    · rfl
  | closing => exact andThen_buffer m.commitTyped_buffer fun _ => rfl

/-- An edit of a naming leaves the text alone. -/
theorem editNaming_buffer (m : Machine) (target : Target) (change : Naming → Naming)
    (missing : Event) : (m.editNaming target change missing).machine.buffer = m.buffer := by
  cases target with
  | current =>
    simp only [editNaming, editBuffer]
    split <;> rfl
  | previous =>
    simp only [editNaming, editPrevious]
    split <;> rfl

/-! ## The number -/

/-- A key types behind the text, or starts a new one. -/
theorem typeKey_textMove {key : Char} (hkey : Buffer.isKey key = true) :
    TextMove p m.buffer (m.typeKey key).buffer := by
  obtain ⟨naming, intermediate, heq⟩ := m.exists_typeKey_eq key
  rw [heq]
  dsimp only [keyedText]
  split
  · exact .first hkey
  · exact .type hkey

/-- A calculation leaves the text alone, or puts a result or the error marker there. -/
theorem calculate_textMove (m : Machine) : TextMove p m.buffer m.calculate.machine.buffer := by
  have hends := m.calculates
  generalize m.calculate.machine = m' at hends ⊢
  generalize m.calculate.fault = fault at hends
  cases hends with
  | ignored _ => exact .keep
  | nothing _ _ => exact .keep
  | fail _ _ => exact .fail
  | refuse _ h _ _ =>
    rw [h.buffer]
    exact .keep
  | conclude _ _ _ _ _ => exact .result _

/-- Loading puts the result of an entry into the buffer. -/
theorem load_textMove (hm : ∀ e ∈ m.history.entries, e.IsCalculated) (index : Int) :
    TextMove p m.buffer (m.load index).machine.buffer := by
  unfold load
  split
  · exact .keep
  · split
    · exact .keep
    · next entry hentry =>
      obtain ⟨x, -, hresult⟩ := (hm entry (mem_entries_of_get? hentry)).result
      dsimp only [done]
      rw [hresult]
      exact .result x

/-- A kept number takes the place of the text. -/
theorem typeKept_textMove {value : String} (hvalue : p value) (naming : Naming) :
    TextMove p m.buffer (m.typeKept value naming).machine.buffer :=
  guarded_textMove (.recalled hvalue)

/-- An action makes one move, as long as the history holds nothing but calculations. -/
theorem perform_textMove (hm : ∀ e ∈ m.history.entries, e.IsCalculated) (action : Action) :
    TextMove (action.Recalls m) m.buffer (m.perform action).machine.buffer := by
  have hkeep {m' m'' : Machine} (h : m''.buffer = m'.buffer) :
      TextMove (action.Recalls m) m'.buffer m''.buffer := h ▸ .keep
  cases action with
  | digit key =>
    exact checking_textMove fun c hc => guarded_textMove (typeKey_textMove (isKey_of_readKey hc))
  | point => exact guarded_textMove (typeKey_textMove rfl)
  | parenthesis mark =>
    exact checking_textMove fun mark _ => guarded_textMove (hkeep (typeMark_buffer _ mark))
  | operator spelling =>
    exact checking_textMove fun op _ => guarded_textMove (hkeep (typeOperator_buffer _ op))
  | calculate => exact m.calculate_textMove
  | clear => exact .start
  | delete =>
    refine guarded_textMove ?_
    dsimp only [done]
    split
    · exact .keep
    · -- without this step `exact` would unfold the edit, and so it would in the cases below
      dsimp only
      exact .erase
  | toggleSign =>
    refine guarded_textMove ?_
    split
    · exact .fail
    · next x hread =>
      dsimp only [done]
      split
      · exact .keep
      · dsimp only
        exact .sign hread
  | percentage =>
    refine guarded_textMove ?_
    split
    · exact .fail
    · dsimp only [done]
      exact .percent _
  | label target text color =>
    exact checking_textMove fun target _ => checking_textMove fun color _ =>
      guarded_textMove (hkeep (editNaming_buffer _ target _ _))
  | unit target text =>
    exact checking_textMove fun target _ =>
      guarded_textMove (hkeep (editNaming_buffer _ target _ _))
  | load index => exact load_textMove hm index
  | save label value unit color => exact checking_textMove fun vs _ => .keep
  | forget label => exact .keep
  | retrieve label => exact checking_textMove fun v hv => typeKept_textMove ⟨v, hv, rfl⟩ _
  | retrieveSaved value request =>
    have hrecalls : (Action.retrieveSaved value request).Recalls m value := rfl
    exact checking_textMove fun naming _ => typeKept_textMove hrecalls naming

end Machine

end Keypad
