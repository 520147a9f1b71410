import Keypad.Machine.View
import Keypad.Proofs.Expression.Alike
import Keypad.Proofs.Machine.Invariants

/-!
# What is shown is what is calculated

`Machine.expression` puts together what a host shows, and `Machine.calculate` what it evaluates.
Each decides for itself whether the number in the buffer belongs to the expression.
`CalculatesShown` says that they agree: what `calculate` does can be told from the shown row alone.
The number being typed is shown under the ident of the current one and is kept under an ident of its
own; that changes nothing but the ident of the last operand, since no other is shown as the current
one.

* `calculatesShown` — they agree on every machine that has something in its buffer and known
  operators in its row.
* `run_calculatesShown` — and so they do on every machine that a run leads to.
-/

namespace Keypad

/-- The token under the ident that the number `n` gives, if it is shown as the current operand. -/
def Token.settle (n : Nat) (t : Token) : Token :=
  if t.ident = some Machine.currentIdent then
    { t with ident := some (Machine.operandIdent n) }
  else t

/-- Evaluation does not see the change of an ident. -/
theorem Token.superficial_settle (n : Nat) : Expression.Superficial (Token.settle n) := by
  constructor
  · intro t
    unfold settle
    split <;> rfl
  · intro t
    unfold settle
    split <;> rfl

namespace Machine

open Outcome

/-- The machine is in the error state, with nothing left of what was typed. -/
structure InError (m : Machine) : Prop where
  failed : m.failed = true
  buffer : m.buffer = errorMarker
  naming : m.naming = .blank
  committed : m.committed = []
  settled : m.settled = true

/-- Going into the error state leaves nothing of what was typed. -/
theorem inError_enterError (m : Machine) : m.enterError.InError := ⟨rfl, rfl, rfl, rfl, rfl⟩

/-- What `calculate` does is told by the row that is shown before it. -/
structure CalculatesShown (m : Machine) : Prop where
  /-- It is never refused. -/
  fault : m.calculate.fault = none
  /-- If there is no row because the buffer holds no number, it ends in the error state. -/
  of_unshown : ∀ {fault}, m.expression = .error fault →
    m.calculate.machine.InError ∧ m.calculate.machine.history = m.history
  /-- If the row is empty, only the notice goes. -/
  of_nothing : m.expression = .ok [] → m.calculate.machine = m.quiet
  /-- If the row has no value, it ends in the error state. -/
  of_fault : ∀ {ts fault}, m.expression = .ok ts → Expression.evaluate ts = .error fault →
    m.calculate.machine.InError ∧ m.calculate.machine.history = m.history
  /-- If the row has a value, that is what is shown and kept, with the row. -/
  of_value : ∀ {ts x}, m.expression = .ok ts → ts ≠ [] → Expression.evaluate ts = .ok x →
    m.calculate.machine.failed = false ∧
      m.calculate.machine.buffer = x.resultText ∧
      m.calculate.machine.committed = [] ∧
      m.calculate.machine.history =
        m.history.push ⟨ts.map (Token.settle m.nextIdent), x.resultText⟩
  /-- Only the last operand of the row can be shown as the current one. -/
  current : ∀ {ts}, m.expression = .ok ts → ∀ t ∈ ts.dropLast, t.ident ≠ some currentIdent
  /-- The ident that it is kept under is new. -/
  fresh : ∀ ts, ts = m.committed ∨ (∃ e ∈ m.history.entries, ts = e.tokens) →
    ∀ t ∈ ts, t.ident ≠ some (operandIdent m.nextIdent)

variable {m : Machine}

/-! ## The row that is shown -/

/-- A settled number is not shown with the row. -/
theorem expression_of_settled (h : m.settled = true) : m.expression = .ok m.committed := by
  rw [expression, h]
  rfl

/-- A number that is being typed is shown behind it. -/
theorem expression_of_read (h : m.settled = false) (hbuffer : m.buffer ≠ "") {x : Double}
    (hread : Number.read m.buffer = .ok x) :
    m.expression = .ok (m.committed ++ [m.typed currentIdent]) := by
  rw [expression, if_pos (by simp [h, hbuffer]), Token.operand, hread]
  rfl

/-- What is no number cannot be shown. -/
theorem expression_of_error (h : m.settled = false) (hbuffer : m.buffer ≠ "") {fault : Fault}
    (hread : Number.read m.buffer = .error fault) : m.expression = .error fault := by
  rw [expression, if_pos (by simp [h, hbuffer]), Token.operand, hread]
  rfl

/-- A row that is shown is the committed one, or that with the number being typed behind it. -/
theorem of_expression {ts : Expression} (h : m.expression = .ok ts) :
    ts = m.committed ∨ ts = m.committed ++ [m.typed currentIdent] := by
  unfold expression Token.operand at h
  split at h
  · cases hread : Number.read m.buffer with
    | error fault => rw [hread] at h; cases h
    | ok x => rw [hread] at h; exact .inr (Except.ok.inj h).symm
  · exact .inl (Except.ok.inj h).symm

/-- No committed operand is marked as the current one. -/
theorem WellNumbered.ident_ne_current (h : m.WellNumbered) {t : Token} (ht : t ∈ m.committed) :
    t.ident ≠ some currentIdent := by
  intro hident
  obtain ⟨k, -, hk⟩ := h.committed.exists_lt ht hident
  exact operandIdent_ne_currentIdent k hk.symm

/-- Of a row that is shown only the last token can be marked as the current one. -/
theorem WellNumbered.ident_ne_current_of_expression (h : m.WellNumbered) {ts : Expression}
    (hts : m.expression = .ok ts) : ∀ t ∈ ts.dropLast, t.ident ≠ some currentIdent := by
  intro t ht
  rcases of_expression hts with rfl | rfl
  · exact h.ident_ne_current (List.dropLast_subset _ ht)
  · rw [List.dropLast_concat] at ht
    exact h.ident_ne_current ht

/-- No token of a numbered row has the next ident already. -/
theorem Numbered.ident_ne_next {n : Nat} {ts : Expression} (h : Numbered n ts) {t : Token}
    (ht : t ∈ ts) : t.ident ≠ some (operandIdent n) := by
  intro hident
  obtain ⟨k, hlt, hk⟩ := h.exists_lt ht hident
  exact absurd (operandIdent_inj.1 hk) (Nat.ne_of_gt hlt)

/-- There is nothing to settle in the committed row. -/
theorem WellNumbered.map_settle (h : m.WellNumbered) (n : Nat) :
    m.committed.map (Token.settle n) = m.committed := by
  conv => rhs; rw [← List.map_id m.committed]
  refine List.map_congr_left fun t ht => ?_
  exact if_neg (h.ident_ne_current ht)

/-- The row that is kept, if the number being typed belongs to it. -/
theorem WellNumbered.map_settle_typed (h : m.WellNumbered) :
    (m.committed ++ [m.typed currentIdent]).map (Token.settle m.nextIdent) =
      m.pushed.committed := by
  rw [List.map_append, h.map_settle]
  rfl

/-! ## What is calculated -/

theorem evaluateCommitted_of_nil (h : m.committed = []) : m.evaluateCommitted = done m := by
  rw [evaluateCommitted, h]
  rfl

/-- A failure that the user is told of leads into the error state. -/
theorem evaluateCommitted_of_error (h : m.committed ≠ []) {fault : Fault}
    (hx : Expression.evaluate m.committed = .error fault) (hfault : fault.kind.isTold = true) :
    m.evaluateCommitted = m.fail fault := by
  rw [evaluateCommitted, if_neg (by simpa using h), hx]
  exact if_pos hfault

/-- Any other is passed on. -/
theorem evaluateCommitted_of_untold (h : m.committed ≠ []) {fault : Fault}
    (hx : Expression.evaluate m.committed = .error fault) (hfault : fault.kind.isTold = false) :
    m.evaluateCommitted = refused m fault := by
  rw [evaluateCommitted, if_neg (by simpa using h), hx]
  exact if_neg (Bool.eq_false_iff.1 hfault)

/-- The value of the row is the result. -/
theorem evaluateCommitted_of_ok (h : m.committed ≠ []) {x : Double}
    (hx : Expression.evaluate m.committed = .ok x) :
    m.evaluateCommitted =
      noted (m.concluded x.resultText) (.calculated m.committed x.resultText) := by
  rw [evaluateCommitted, if_neg (by simpa using h), hx]

/-- So a row of known operators is never refused. -/
theorem evaluateCommitted_fault (h : m.committed.Known) : m.evaluateCommitted.fault = none := by
  unfold evaluateCommitted
  split
  · rfl
  · split
    · next hx => rw [if_pos (Expression.isTold_of_evaluate h hx)]; rfl
    · rfl

/-- A settled number takes no part in the calculation. -/
theorem calculate_of_settled (hm : m.failed = false) (hs : m.settled = true) :
    m.calculate = m.quiet.evaluateCommitted := by
  rw [calculate, guarded_of_not_failed hm, commitTyped,
    if_pos (show m.quiet.settled = true from hs)]
  exact done_andThen _ _

/-- A number that is being typed is committed first. -/
theorem calculate_of_read (hm : m.failed = false) (hs : m.settled = false) {x : Double}
    (hread : Number.read m.buffer = .ok x) :
    m.calculate =
      (noted m.quiet.pushed (.committed (m.typed (operandIdent m.nextIdent)))).andThen
        evaluateCommitted := by
  rw [calculate, guarded_of_not_failed hm, commitTyped,
    if_neg (Bool.eq_false_iff.1 (show m.quiet.settled = false from hs)),
    commit_of_read (m := m.quiet) hread]
  rfl

/-- If it cannot be, the calculation fails, and its ident is used up. -/
theorem calculate_of_error (hm : m.failed = false) (hs : m.settled = false) {fault : Fault}
    (hread : Number.read m.buffer = .error fault) :
    m.calculate =
      ⟨enterError { m.quiet with nextIdent := m.nextIdent + 1 }, none, [.failed fault]⟩ := by
  rw [calculate, guarded_of_not_failed hm, commitTyped,
    if_neg (Bool.eq_false_iff.1 (show m.quiet.settled = false from hs)),
    commit_of_error (m := m.quiet) hread]
  rfl

/-- A shown row is the one that is evaluated, with its last ident settled. -/
theorem calculate_of_expression (hm : m.failed = false) (hbuffer : m.buffer ≠ "")
    (hnum : m.WellNumbered) (hknown : m.committed.Known) {ts : Expression}
    (hts : m.expression = .ok ts) :
    ∃ m', m'.committed = ts.map (Token.settle m.nextIdent) ∧ m'.committed.Known ∧
      m'.failed = false ∧ m'.history = m.history ∧ (ts = [] → m' = m.quiet) ∧
      m.calculate.machine = m'.evaluateCommitted.machine ∧ m.calculate.fault = none := by
  cases hs : m.settled with
  | true =>
    obtain rfl : m.committed = ts := Except.ok.inj (expression_of_settled hs ▸ hts)
    rw [calculate_of_settled hm hs]
    exact ⟨m.quiet, (hnum.map_settle _).symm, hknown, hm, rfl, fun _ => rfl, rfl,
      evaluateCommitted_fault (m := m.quiet) hknown⟩
  | false =>
    cases hread : Number.read m.buffer with
    | error fault => cases expression_of_error hs hbuffer hread ▸ hts
    | ok x =>
      -- the number being typed is shown behind the row, and is committed behind it
      obtain rfl : m.committed ++ [m.typed currentIdent] = ts :=
        Except.ok.inj (expression_of_read hs hbuffer hread ▸ hts)
      rw [calculate_of_read hm hs hread, andThen_of_done rfl]
      have hpushed : m.quiet.pushed.committed.Known := hknown.concat rfl
      refine ⟨m.quiet.pushed, hnum.map_settle_typed.symm, hpushed, hm, rfl, fun hnil => ?_, rfl,
        evaluateCommitted_fault hpushed⟩
      exact absurd hnil (List.append_ne_nil_of_right_ne_nil _ (List.cons_ne_nil _ _))

/-- A buffer that cannot be shown cannot be committed either. -/
theorem calculate_of_unshown (hm : m.failed = false) (hbuffer : m.buffer ≠ "") {fault : Fault}
    (h : m.expression = .error fault) :
    m.calculate.fault = none ∧ m.calculate.machine.InError ∧
      m.calculate.machine.history = m.history := by
  cases hs : m.settled with
  | true => cases expression_of_settled hs ▸ h
  | false =>
    cases hread : Number.read m.buffer with
    | ok x => cases expression_of_read hs hbuffer hread ▸ h
    | error fault =>
      rw [calculate_of_error hm hs hread]
      exact ⟨rfl, inError_enterError _, rfl⟩

/-! ## They agree -/

/-- Whatever the flags say, the shown row and the calculated one are the same. -/
theorem calculatesShown (hm : m.failed = false) (hbuffer : m.buffer ≠ "") (hnum : m.WellNumbered)
    (hknown : m.committed.Known) : m.CalculatesShown where
  fault := by
    cases hts : m.expression with
    | error fault => exact (calculate_of_unshown hm hbuffer hts).1
    | ok ts =>
      obtain ⟨m', -, -, -, -, -, -, hfault⟩ := calculate_of_expression hm hbuffer hnum hknown hts
      exact hfault
  of_unshown h := (calculate_of_unshown hm hbuffer h).2
  of_nothing hts := by
    obtain ⟨m', hrow, -, -, -, hquiet, heq, -⟩ :=
      calculate_of_expression hm hbuffer hnum hknown hts
    rw [heq, evaluateCommitted_of_nil hrow, hquiet rfl]
    rfl
  of_fault {ts fault} hts hx := by
    obtain ⟨m', hrow, hrows, -, hhistory, -, heq, -⟩ :=
      calculate_of_expression hm hbuffer hnum hknown hts
    have hvalue : Expression.evaluate m'.committed = .error fault := by
      rw [hrow, Expression.evaluate_map (Token.superficial_settle _), hx]
    -- an empty row would have a value
    have hne : m'.committed ≠ [] := by
      intro hnil
      rw [hnil] at hvalue
      cases hvalue
    rw [heq, evaluateCommitted_of_error hne hvalue (Expression.isTold_of_evaluate hrows hvalue)]
    exact ⟨inError_enterError _, hhistory⟩
  of_value {ts x} hts hne hx := by
    obtain ⟨m', hrow, -, hfailed, hhistory, -, heq, -⟩ :=
      calculate_of_expression hm hbuffer hnum hknown hts
    have hvalue : Expression.evaluate m'.committed = .ok x := by
      rw [hrow, Expression.evaluate_map (Token.superficial_settle _), hx]
    rw [heq, evaluateCommitted_of_ok (by simpa [hrow] using hne) hvalue, ← hrow, ← hhistory]
    exact ⟨hfailed, rfl, rfl, rfl⟩
  current hts := hnum.ident_ne_current_of_expression hts
  fresh ts hts t ht := by
    rcases hts with rfl | ⟨e, he, rfl⟩
    · exact hnum.committed.ident_ne_next ht
    · exact (hnum.history e he).ident_ne_next ht

/-- On every machine that a run of actions leads to, `calculate` does what the shown row says. The
run may type variables of the machine only; what else is asked for, and with what arguments, is
free. -/
theorem run_calculatesShown (limit : Nat) {actions : List Action}
    (h : Along (fun m action => action.HandsBack (fun _ => False) m) (new (.ofLimit limit)) actions)
    (hm : ((new (.ofLimit limit)).run actions).failed = false) :
    ((new (.ofLimit limit)).run actions).CalculatesShown := by
  have hoccupied := h.moves.keep (fun _ _ => Move.occupied fun _ => False.elim) (occupied_new limit)
  have hnum := h.moves.keep (fun _ _ => Move.wellNumbered) (wellNumbered_new limit)
  have hknown := h.moves.keep (fun _ _ => Move.knownRows) (knownRows_new limit)
  exact calculatesShown hm hoccupied.buffer hnum hknown.committed

/-- A number is saved and typed again behind an operator. -/
theorem run_calculatesShown_of_variable :
    ((new (.ofLimit 0)).run [.save "rate" "1.5" none none, .digit "2", .operator "*",
      .retrieve "rate"]).CalculatesShown :=
  run_calculatesShown 0 ⟨trivial, trivial, trivial, trivial, trivial⟩ (by decide +kernel)

end Machine

end Keypad
