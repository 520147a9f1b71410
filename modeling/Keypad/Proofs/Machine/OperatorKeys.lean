import Keypad.Proofs.Machine.TypedExpression

/-!
# Operator keys in a row

The first operator key behind a number commits the number and appends its symbol; where the row ends
in an operator already, the key only changes the symbol there. Either way what it leaves depends on
the operator in the symbol of the last token alone (`exists_endingIn`), and that is just what the
next operator key overwrites (`typeOperator_endingIn`). So of several operator keys in a row only
the last one counts.

* `exists_leadsTo` — what operator keys lead to, in the error state or outside it.
* `run_operators`  — a row of operator keys on any machine.
-/

namespace Keypad.Machine

open Outcome

variable {m : Machine} {row : Expression} {last : Token} {after : Operator → Machine}

/-! ## The symbol at the end of the row -/

/-- The machine with a row of tokens and, behind them, one more with the symbol of an operator. -/
def endingIn (m : Machine) (row : Expression) (last : Token) (op : Operator) : Machine :=
  { m with committed := row ++ [{ last with value := op.symbol }] }

/-- Straight after an operator only its symbol changes. -/
theorem typeOperator_endingIn (hs : m.settled = true) (hlast : last.isOperator = true)
    (op op' : Operator) :
    ((m.endingIn row last op).typeOperator op').ending = (m.endingIn row last op', none) := by
  have hlast? : (m.endingIn row last op).lastOperator? = some { last with value := op.symbol } := by
    rw [lastOperator?, endingIn, List.getLast?_concat]
    exact Option.filter_some_pos hlast
  have hne : (m.endingIn row last op).committed.isEmpty = false := by
    rw [endingIn, List.isEmpty_eq_false_iff]
    exact List.append_ne_nil_of_right_ne_nil _ (List.cons_ne_nil _ _)
  have hanew : (!(m.endingIn row last op).settled || (m.endingIn row last op).committed.isEmpty) =
      false := Bool.or_eq_false_iff.2 ⟨by rw [Bool.not_eq_false']; exact hs, hne⟩
  rw [typeOperator, hanew, hlast?]
  simp only [endingIn, List.dropLast_concat]
  rfl

/-- What an operator that is not refused leaves is the same for each operator, but for the symbol at
the end of the row. -/
theorem exists_endingIn {op : Operator} (h : (m.typeOperator op).fault = none) :
    ∃ (m₁ : Machine) (row : Expression) (last : Token),
      m₁.settled = true ∧ last.isOperator = true ∧ m₁.failed = m.failed ∧ m₁.notice = m.notice ∧
        ∀ op', (m.typeOperator op').ending = (m₁.endingIn row last op', none) := by
  -- of the token that is appended only the symbol depends on the operator
  have happend (m : Machine) (op' : Operator) : m.appendOperator op' =
      endingIn { m with settled := true, naming := .blank } m.committed (Token.operator op) op' :=
    rfl
  -- either the number is committed first, or the row stands and ends in an operator or not
  cases hanew : !m.settled || m.committed.isEmpty with
  | true =>
    have hcommit (op' : Operator) : m.typeOperator op' =
        m.commit.andThen fun m => done (m.appendOperator op') := by
      rw [typeOperator, hanew]
      rfl
    cases hread : Number.read m.buffer with
    | error fault =>
      rw [hcommit, commit_of_error hread] at h
      cases h
    | ok x =>
      refine ⟨{ m.pushed with settled := true, naming := .blank }, m.pushed.committed,
        Token.operator op, rfl, rfl, rfl, rfl, fun op' => ?_⟩
      rw [hcommit, commit_of_read hread, ← happend m.pushed]
      rfl
  | false =>
    cases hlast : m.lastOperator? with
    | none =>
      refine ⟨{ m with settled := true, naming := .blank }, m.committed, Token.operator op, rfl,
        rfl, rfl, rfl, fun op' => ?_⟩
      rw [typeOperator, hanew, hlast, ← happend m]
      rfl
    | some last =>
      have hs : m.settled = true := by simpa using (Bool.or_eq_false_iff.1 hanew).1
      obtain ⟨-, hop⟩ := Option.filter_eq_some_iff.1 hlast
      refine ⟨m, m.committed.dropLast, last, hs, hop, rfl, rfl, fun op' => ?_⟩
      rw [typeOperator, hanew, hlast]
      rfl

/-! ## One key after the other -/

/-- The key of an operator is not refused, and leads to the machine of that operator. -/
def LeadsTo (m : Machine) (after : Operator → Machine) : Prop :=
  ∀ {spelling op}, Operator.read spelling = .ok op →
    (m.perform (.operator spelling)).ending = (after op, none)

/-- A key with a spelling that can be read types its operator. -/
theorem perform_operator {spelling : String} {op : Operator} (h : Operator.read spelling = .ok op) :
    m.perform (.operator spelling) = m.guarded "operator" fun m => m.typeOperator op := by
  rw [perform, pressOperator, h]
  rfl

/-- If one operator key is not refused then none is, and none is afterwards; and whatever operator
came before, a key leads to the machine of its own operator. -/
theorem exists_leadsTo {spelling : String} (h : (m.perform (.operator spelling)).fault = none) :
    ∃ after, m.LeadsTo after ∧ ∀ op, (after op).LeadsTo after := by
  cases hm : m.failed with
  | true =>
    have hignored (m : Machine) (hm : m.failed = true) : m.LeadsTo fun _ => m.quiet := by
      intro spelling op hop
      rw [perform_operator hop, guarded_of_failed hm]
      rfl
    exact ⟨_, hignored m hm, fun _ => hignored m.quiet hm⟩
  | false =>
    cases hop : Operator.read spelling with
    | error fault =>
      rw [perform, pressOperator, hop] at h
      cases h
    | ok op =>
      rw [perform_operator hop, guarded_of_not_failed hm] at h
      obtain ⟨m₁, row, last, hs, hlast, hfailed, hnotice, hends⟩ := exists_endingIn h
      have hquiet (op : Operator) : (m₁.endingIn row last op).quiet = m₁.endingIn row last op := by
        simp only [quiet, endingIn, hnotice]
      refine ⟨m₁.endingIn row last, fun {spelling op} hop => ?_, fun op' spelling op hop => ?_⟩
      · rw [perform_operator hop, guarded_of_not_failed hm]
        exact hends op
      · have hm' : (m₁.endingIn row last op').failed = false := hfailed.trans hm
        rw [perform_operator hop, guarded_of_not_failed hm', hquiet]
        exact typeOperator_endingIn hs hlast op' op

/-- A row of operator keys leads where its last key leads at once. -/
theorem LeadsTo.run (h : m.LeadsTo after) (hafter : ∀ op, (after op).LeadsTo after)
    {spellings : List String} (hne : spellings ≠ [])
    (hread : ∀ spelling ∈ spellings, ∃ op, Operator.read spelling = .ok op) :
    Along (fun m action => (m.perform action).fault = none) m (spellings.map .operator) ∧
      ∃ op, Operator.read (spellings.getLast hne) = .ok op ∧
        m.run (spellings.map .operator) = after op := by
  induction spellings generalizing m with
  | nil => exact absurd rfl hne
  | cons spelling spellings ih =>
    obtain ⟨⟨op, hop⟩, hread⟩ := List.forall_mem_cons.1 hread
    obtain ⟨hmachine, hfault⟩ := Prod.mk.inj (h hop)
    rw [List.map_cons, Along, run_cons, hmachine]
    by_cases hlast : spellings = []
    · subst hlast
      exact ⟨⟨hfault, trivial⟩, op, hop, rfl⟩
    · obtain ⟨halong, hrun⟩ := ih (hafter op) hlast hread
      rw [List.getLast_cons hlast]
      exact ⟨⟨hfault, halong⟩, hrun⟩

/-- On any machine, in the error state or not: if the first of some operator keys is not refused
then none of them is, and they leave what the last of them leaves alone. -/
theorem run_operators {spellings : List String} (hne : spellings ≠ [])
    (hread : ∀ spelling ∈ spellings, ∃ op, Operator.read spelling = .ok op)
    (hfirst : (m.perform (.operator (spellings.head hne))).fault = none) :
    Along (fun m action => (m.perform action).fault = none) m (spellings.map .operator) ∧
      m.run (spellings.map .operator) =
        (m.perform (.operator (spellings.getLast hne))).machine := by
  obtain ⟨after, hleads, hafter⟩ := exists_leadsTo hfirst
  obtain ⟨halong, op, hop, hrun⟩ := hleads.run hafter hne hread
  have hlast : (m.perform (.operator (spellings.getLast hne))).machine = after op :=
    congrArg Prod.fst (hleads hop)
  exact ⟨halong, hrun.trans hlast.symm⟩

/-- A named number that is being typed behind an opening mark. -/
def namedInGroup : Machine :=
  (new (.ofLimit 0)).run [.parenthesis "(", .digit "7", .label "current" (some "rent") .keep]

/-- Four spellings of three operators behind it. -/
theorem run_operators_of_namedInGroup :
    (∀ spelling ∈ ["+", "*", "x", "−"], ∃ op, Operator.read spelling = .ok op) ∧
      (namedInGroup.perform (.operator "+")).fault = none ∧
      namedInGroup.run [.operator "+", .operator "*", .operator "x", .operator "−"] =
        (namedInGroup.perform (.operator "−")).machine ∧
      (namedInGroup.perform (.operator "−")).machine.committed.map Token.value =
        ["(", "7", "-"] := by
  have hread : ∀ spelling ∈ ["+", "*", "x", "−"], ∃ op, Operator.read spelling = .ok op := by
    simp only [List.forall_mem_cons]
    exact ⟨⟨_, rfl⟩, ⟨_, rfl⟩, ⟨_, rfl⟩, ⟨_, rfl⟩, List.forall_mem_nil _⟩
  have hfirst : (namedInGroup.perform (.operator "+")).fault = none := by decide +kernel
  exact ⟨hread, hfirst, (run_operators (List.cons_ne_nil _ _) hread hfirst).2, by decide +kernel⟩

end Keypad.Machine
