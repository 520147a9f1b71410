import Keypad.Proofs.Machine.Frame
import Keypad.Proofs.Machine.Shown

/-!
# The history is the log of calculations

A calculation is finished when `calculate` is asked for outside the error state, is not refused,
does not lead into the error state, and had a row to work on. `Action.calculation?` tells it from
the machine before and after: the row, with what then stands in the buffer. The calculations of a
run are its log, and the history holds the last of them.

* `calculates`      — the five ways in which `calculate` can end.
* `perform_history` — an action that finishes a calculation puts it in front, and no other action
  touches the history.
* `run_history`     — so the history is the front of the log read backwards.
-/

namespace Keypad

/-- A calculation as it should be kept: a row with a value, and the text of the value. -/
structure Entry.IsCalculated (e : Entry) : Prop where
  ne_nil : e.tokens ≠ []
  result : ∃ x, Expression.evaluate e.tokens = .ok x ∧ e.result = x.resultText

namespace History

/-- A full history drops its oldest entry for a new one, and no other. -/
theorem entries_push_eq (h : History) (e : Entry) :
    (h.push e).entries =
      e :: if h.entries.length < h.limit then h.entries else h.entries.dropLast := by
  obtain ⟨n, hn⟩ : ∃ n, h.limit = n + 1 := Nat.exists_eq_add_one.2 h.limit_pos
  rw [entries_push, hn, List.take_succ_cons]
  congr 1
  split
  · next hlt => exact List.take_of_length_le (Nat.le_of_lt_succ hlt)
  · next hlt =>
    have hlength : h.entries.length = n + 1 := by
      have hle := h.length_le
      omega
    rw [List.dropLast_eq_take, hlength, Nat.add_sub_cancel]

end History

namespace Machine

open Outcome

/-- What `calculate` evaluates: the committed tokens, and the number being typed behind them. -/
def row (m : Machine) : Expression := if m.settled then m.committed else m.pushed.committed

end Machine

/-- The calculation that an action finishes: its row, and what stands in the buffer afterwards. -/
def Action.calculation? (m : Machine) : Action → Option Entry
  | .calculate =>
    let after := m.calculate.machine
    if m.failed = false ∧ m.calculate.fault = none ∧ after.failed = false ∧ m.row ≠ [] then
      some ⟨m.row, after.buffer⟩
    else none
  | _ => none

namespace Machine

open Outcome

/-- The log of a run: the calculations it finishes, in their order. -/
def calculations (m : Machine) : List Action → List Entry
  | [] => []
  | action :: actions =>
    (action.calculation? m).toList ++ calculations (m.perform action).machine actions

/-- What an action does to the history: a calculation that it finishes comes in front, for which a
full history gives up its oldest entry; otherwise nothing is done. -/
def KeepsLog (m : Machine) (action : Action) : Prop :=
  match action.calculation? m with
  | some e =>
    (m.perform action).machine.history.entries =
      e :: if m.history.entries.length < m.history.limit then m.history.entries
        else m.history.entries.dropLast
  | none => (m.perform action).machine.history = m.history

/-! ## How `calculate` ends -/

/-- The machine on which `calculate` goes to work, as far as it is still the old one. -/
structure Ready (m m₁ : Machine) : Prop where
  buffer : m₁.buffer = m.buffer
  intermediate : m₁.intermediate = m.intermediate
  failed : m₁.failed = m.failed
  history : m₁.history = m.history
  notice : m₁.notice = none

/-- The ways in which `calculate` can end, each with the machine and the fault it comes to. -/
inductive Calculates (m : Machine) : Machine → Option Fault → Prop where
  | ignored (hm : m.failed = true) : Calculates m m.quiet none
  /-- There is nothing to calculate. -/
  | nothing (hm : m.failed = false) (hrow : m.row = []) : Calculates m m.quiet none
  | fail (hm : m.failed = false) {m₁ : Machine} (h : Ready m m₁) : Calculates m m₁.enterError none
  /-- An operator of the row is none. -/
  | refuse (hm : m.failed = false) {m₁ : Machine} (h : Ready m m₁) {fault : Fault}
      (hx : Expression.evaluate m.row = .error fault) (hfault : fault.kind.isTold = false) :
      Calculates m m₁ (some fault)
  | conclude (hm : m.failed = false) (hne : m.row ≠ []) {m₁ : Machine} (h : Ready m m₁)
      (hrow : m₁.committed = m.row) {x : Double} (hx : Expression.evaluate m.row = .ok x) :
      Calculates m (m₁.concluded x.resultText) none

theorem ready_quiet (m : Machine) : Ready m m.quiet := ⟨rfl, rfl, rfl, rfl, rfl⟩

/-- A settled number is not part of the row. -/
theorem row_of_settled {m : Machine} (h : m.settled = true) : m.row = m.committed := if_pos h

/-- A number that is being typed is. -/
theorem row_of_typed {m : Machine} (h : m.settled = false) : m.row = m.pushed.committed :=
  if_neg (Bool.eq_false_iff.1 h)

/-- Evaluating the row of a machine that is ready ends with its value, in the error state, or with a
fault that the user is not told of. -/
theorem Ready.calculates {m m₁ : Machine} (hm : m.failed = false) (h : Ready m m₁)
    (hrow : m₁.committed = m.row) (hne : m.row ≠ []) :
    Calculates m m₁.evaluateCommitted.machine m₁.evaluateCommitted.fault := by
  have hcommitted : m₁.committed ≠ [] := hrow ▸ hne
  cases hx : Expression.evaluate m.row with
  | error fault =>
    cases hfault : fault.kind.isTold with
    | true =>
      rw [evaluateCommitted_of_error hcommitted (hrow ▸ hx) hfault]
      exact .fail hm h
    | false =>
      rw [evaluateCommitted_of_untold hcommitted (hrow ▸ hx) hfault]
      exact .refuse hm h hx hfault
  | ok x =>
    rw [evaluateCommitted_of_ok hcommitted (hrow ▸ hx)]
    exact .conclude hm hne h hrow hx

/-- There is no other way for `calculate` to end. -/
theorem calculates (m : Machine) : Calculates m m.calculate.machine m.calculate.fault := by
  cases hm : m.failed with
  | true =>
    rw [calculate, guarded_of_failed hm]
    exact .ignored hm
  | false =>
    -- a settled number is not committed again; one that is typed becomes the end of the row
    cases hs : m.settled with
    | true =>
      rw [calculate_of_settled hm hs]
      have hrow : m.quiet.committed = m.row := (row_of_settled hs).symm
      by_cases hne : m.row = []
      · rw [evaluateCommitted_of_nil (hrow.trans hne)]
        exact .nothing hm hne
      · exact (ready_quiet m).calculates hm hrow hne
    | false =>
      cases hread : Number.read m.buffer with
      | error fault =>
        rw [calculate_of_error hm hs hread]
        exact .fail hm ⟨rfl, rfl, rfl, rfl, rfl⟩
      | ok x =>
        rw [calculate_of_read hm hs hread, andThen_of_done rfl]
        have hrow : m.quiet.pushed.committed = m.row := (row_of_typed hs).symm
        have hready : Ready m m.quiet.pushed := ⟨rfl, rfl, rfl, rfl, rfl⟩
        refine hready.calculates hm hrow ?_
        rw [row_of_typed hs]
        exact List.append_ne_nil_of_right_ne_nil _ (List.cons_ne_nil _ _)

/-- The operators of the row are the committed ones. -/
theorem mem_committed_of_mem_row {m : Machine} {t : Token} (ht : t ∈ m.row)
    (hop : t.isOperator = true) : t ∈ m.committed := by
  unfold row at ht
  split at ht
  · exact ht
  · rcases List.mem_append.1 ht with ht | ht
    · exact ht
    · rw [List.mem_singleton.1 ht] at hop
      cases hop

/-- A calculation is refused only on account of a committed operator that is none. -/
theorem exists_unknown_of_calculate {m : Machine} {fault : Fault}
    (h : m.calculate.fault = some fault) :
    fault.kind.isTold = false ∧
      ∃ t ∈ m.committed, t.isOperator = true ∧ Operator.ofSymbol? t.value = none := by
  have hends := m.calculates
  rw [h] at hends
  generalize m.calculate.machine = m' at hends
  cases hends with
  | refuse _ _ hx hfault =>
    obtain ⟨t, ht, hop, hsymbol⟩ := Expression.exists_unknown_of_evaluate hx hfault
    exact ⟨hfault, t, mem_committed_of_mem_row ht hop, hop, hsymbol⟩

/-- A calculation of known operators is never refused. -/
theorem calculate_fault {m : Machine} (h : m.committed.Known) : m.calculate.fault = none := by
  refine Option.eq_none_iff_forall_ne_some.2 fun fault hfault => ?_
  obtain ⟨-, t, ht, hop, hsymbol⟩ := exists_unknown_of_calculate hfault
  obtain ⟨op, hvalue⟩ := h t ht hop
  rw [hvalue, Operator.ofSymbol?_symbol] at hsymbol
  cases hsymbol

/-! ## What one action does to the history -/

/-- Nothing but `calculate` finishes a calculation. -/
theorem calculation?_of_ne {m : Machine} {action : Action} (h : action ≠ .calculate) :
    action.calculation? m = none := by
  cases action with
  | calculate => exact absurd rfl h
  | _ => rfl

/-- A finished calculation comes in front of the history, and any other leaves it alone. -/
theorem calculate_history (m : Machine) :
    m.calculate.machine.history =
      match Action.calculate.calculation? m with
      | some e => m.history.push e
      | none => m.history := by
  unfold Action.calculation?
  -- of the five ways to end, only the last meets all that a finished calculation asks for
  have hends := m.calculates
  generalize m.calculate.machine = m' at hends ⊢
  generalize m.calculate.fault = fault at hends ⊢
  cases hends with
  | ignored hm => rw [if_neg (by simp [hm])]; rfl
  | nothing hm hrow => rw [if_neg (by simp [hrow])]; rfl
  | fail hm h => rw [if_neg (by simp [enterError])]; exact h.history
  | refuse hm h hx hfault => rw [if_neg (by simp)]; exact h.history
  | conclude hm hne h hrow hx =>
    rw [if_pos ⟨hm, rfl, h.failed.trans hm, hne⟩]
    simp only [concluded, h.history, hrow]

/-- An action that finishes a calculation puts it in front of the history, and no other action
touches the history. -/
theorem perform_history (m : Machine) (action : Action) :
    (m.perform action).machine.history =
      match action.calculation? m with
      | some e => m.history.push e
      | none => m.history := by
  by_cases h : action = .calculate
  · rw [h]
    exact m.calculate_history
  · rw [calculation?_of_ne h]
    exact (m.perform_frame h).history

/-- Every action keeps the log. -/
theorem keepsLog (m : Machine) (action : Action) : KeepsLog m action := by
  have hhistory := m.perform_history action
  unfold KeepsLog
  cases hfinished : action.calculation? m with
  | none => rwa [hfinished] at hhistory
  | some e =>
    rw [hfinished] at hhistory
    dsimp only at hhistory ⊢
    rw [hhistory, History.entries_push_eq]

/-- The row of a finished calculation could be read: without that `calculate` ends in the error
state. -/
theorem tokens_of_calculation? {m : Machine} {action : Action} {e : Entry}
    (h : action.calculation? m = some e) :
    e.tokens = m.row ∧ (m.settled = false → ∃ x, Number.read m.buffer = .ok x) := by
  cases action with
  | calculate =>
    obtain ⟨⟨hm, -, hm', -⟩, he⟩ := Option.ite_none_right_eq_some.1 h
    obtain rfl := Option.some.inj he
    refine ⟨rfl, fun hs => ?_⟩
    cases hread : Number.read m.buffer with
    | ok x => exact ⟨x, rfl⟩
    | error fault =>
      rw [calculate_of_error hm hs hread] at hm'
      cases hm'
  | _ => cases h

/-- A finished calculation is the row with the text of its value. -/
theorem isCalculated_of_calculation? {m : Machine} {action : Action} {e : Entry}
    (h : action.calculation? m = some e) : e.IsCalculated := by
  cases action with
  | calculate =>
    obtain ⟨⟨hm, hnone, hm', hne⟩, he⟩ := Option.ite_none_right_eq_some.1 h
    obtain rfl := Option.some.inj he
    have hends := m.calculates
    generalize m.calculate.machine = m' at hends hm' ⊢
    generalize m.calculate.fault = fault at hends hnone
    cases hends with
    | ignored hfailed => cases hfailed.symm.trans hm
    | nothing _ hrow => exact absurd hrow hne
    | fail _ _ => cases hm'
    | refuse _ _ _ _ => cases hnone
    | conclude _ _ _ _ hx => exact ⟨hne, ⟨_, hx, rfl⟩⟩
  | _ => cases h

/-! ## What a run does to it -/

/-- What holds of all entries and of a calculation that the action finishes holds of all entries
afterwards. -/
theorem forall_mem_entries_perform {P : Entry → Prop} {m : Machine} {action : Action}
    (h : ∀ e ∈ m.history.entries, P e) (hfinished : ∀ e, action.calculation? m = some e → P e) :
    ∀ e ∈ (m.perform action).machine.history.entries, P e := by
  rw [perform_history]
  split
  · next e he =>
    intro e' he'
    rcases List.mem_cons.1 (List.mem_of_mem_take he') with rfl | he'
    · exact hfinished e' he
    · exact h e' he'
  · exact h

/-- Every entry of the history is a row with the text of its value. -/
theorem run_isCalculated {m : Machine} (h : ∀ e ∈ m.history.entries, e.IsCalculated)
    (actions : List Action) : ∀ e ∈ (m.run actions).history.entries, e.IsCalculated := by
  induction actions generalizing m with
  | nil => exact h
  | cons action actions ih =>
    exact ih (forall_mem_entries_perform h fun _ => isCalculated_of_calculation?)

/-- No action changes the limit. -/
theorem perform_limit (m : Machine) (action : Action) :
    (m.perform action).machine.history.limit = m.history.limit := by
  rw [perform_history]
  split <;> rfl

/-- The history after a run: what the run finished, latest first, and then what was there before, as
far as the limit goes. -/
theorem entries_run (m : Machine) (actions : List Action) :
    (m.run actions).history.entries =
      ((m.calculations actions).reverse ++ m.history.entries).take m.history.limit := by
  induction actions generalizing m with
  | nil => exact (List.take_of_length_le m.history.length_le).symm
  | cons action actions ih =>
    rw [run_cons, ih, perform_limit, perform_history, calculations]
    cases action.calculation? m with
    | none => rfl
    | some e =>
      -- what the limit cuts off at one action it would cut off at the end
      have hcut (n : Nat) (es es' : List Entry) :
          (es ++ es'.take n).take n = (es ++ es').take n := by
        rw [List.take_append, List.take_append, List.take_take, Nat.min_eq_left (Nat.sub_le _ _)]
      rw [History.entries_push, Option.toList_some, List.reverse_append, List.append_assoc,
        List.reverse_singleton, List.singleton_append]
      exact hcut _ _ _

theorem along_keepsLog (m : Machine) (actions : List Action) : Along KeepsLog m actions :=
  along_of_forall keepsLog m actions

/-- For any limit and any run of actions, refused ones among them, from a new machine: the history
is the log of the run read backwards, as far as the limit goes; each action keeps it so; and every
entry is a row with the text of its value. No limit, or zero, asks for fifty. -/
theorem run_history (limit : Nat) (actions : List Action) :
    ((new (.ofLimit limit)).run actions).history.entries =
        ((new (.ofLimit limit)).calculations actions).reverse.take
          (if limit = 0 then 50 else limit) ∧
      Along KeepsLog (new (.ofLimit limit)) actions ∧
      ∀ e ∈ ((new (.ofLimit limit)).run actions).history.entries, e.IsCalculated := by
  refine ⟨?_, along_keepsLog _ actions, run_isCalculated (fun e he => ?_) actions⟩
  · rw [entries_run]
    exact congrArg (List.take _) (List.append_nil _)
  · exact absurd he List.not_mem_nil

end Machine

end Keypad
