import Keypad.Proofs.Expression.Postfix
import Keypad.Proofs.Number.ReadBack

/-!
# What a row is refused for

A row of checked tokens can be as ill-formed as it likes, and evaluating it still ends in one of two
ways. What reaches the stack of values are operands that can be read and operators that are known,
since the marks are gone by then. So there is a double in the end, whose text can be shown and read
back, or a fault that tokens of the row are to blame for: `CausedBy` names them.

* `evaluate_causedBy` — every refusal has its cause in the row.
* `evaluate_ends`     — the two ways in which evaluation can end.
-/

namespace Keypad

/-- A result that is no double is out of range. -/
theorem Number.eq_outOfRange_of_toDouble {n : Number} {fault : Fault}
    (h : n.toDouble = .error fault) : fault = .outOfRange := by
  cases n with
  | finite x => cases h
  | infinite negative => exact (Except.error.inj h).symm
  | undefined => exact (Except.error.inj h).symm

namespace Expression

/-- Working the token off can fail only for want of values or on account of the values. -/
def Workable (t : Token) : Prop :=
  (t.isOperand = true ∧ ∃ x, Number.read t.value = .ok x) ∨ ∃ op, t = Token.operator op

/-- What a row can be refused for, each time with what it takes for that in the row. -/
inductive CausedBy (ts : Expression) : Fault → Prop where
  | divisionByZero (h : Token.operator .divide ∈ ts) : CausedBy ts .divisionByZero
  | outOfRange {op : Operator} (h : Token.operator op ∈ ts) : CausedBy ts .outOfRange
  | missingOperand {op : Operator} (h : Token.operator op ∈ ts) :
      CausedBy ts (.missingOperand op.symbol)
  | missingOperator (h : 1 < ts.countP Token.isOperand) : CausedBy ts .missingOperator

variable {ts : Expression} {fault : Fault}

/-- The user is told of a division by zero, of a malformed row or of an overflow. -/
theorem CausedBy.kind_eq (h : CausedBy ts fault) :
    fault.kind = .divisionByZero ∨ fault.kind = .malformed ∨ fault.kind = .overflow := by
  cases h with
  | divisionByZero _ => exact .inl rfl
  | outOfRange _ => exact .inr (.inr rfl)
  | missingOperand _ => exact .inr (.inl rfl)
  | missingOperator _ => exact .inr (.inl rfl)

/-! ## What reaches the stack of values -/

/-- A checked operand can be read, and a checked operator is one of the four. -/
theorem workable_of_checked {t : Token} (ht : t.Checked) (hterm : t.isTerm = true) :
    Workable t := by
  cases ho : t.isOperand with
  | true => exact .inl ⟨ho, ht.exists_read ho⟩
  | false => exact .inr (ht.exists_operator (Token.isOperator_of_isTerm hterm ho))

/-- Checked tokens can be brought into the order of evaluation, and all of them can be worked off
there. -/
theorem exists_workable_queue (hts : ∀ t ∈ ts, t.Checked) :
    ∃ queue, toQueue ts = .ok queue ∧ ∀ t ∈ queue, Workable t := by
  refine ⟨reorder ts, toQueue_of_known (known_of_checked hts), fun t ht => ?_⟩
  obtain ⟨ht, hterm⟩ := mem_reorder.1 ht
  exact workable_of_checked (hts t ht) hterm

/-! ## Where a refusal comes from -/

/-- Only a division looks for a zero divisor, and any operation can leave the range of doubles. -/
theorem causedBy_of_perform {op : Operator} (hop : Token.operator op ∈ ts) {x y : Double}
    (h : op.perform x y = .error fault) : CausedBy ts fault := by
  unfold Operator.perform at h
  split at h
  · next hzero =>
    obtain rfl := Except.error.inj h
    exact .divisionByZero (hzero.1 ▸ hop)
  · obtain rfl := Number.eq_outOfRange_of_toDouble h
    exact .outOfRange hop

/-- An operator is refused because two values are not there, or by its operation on them. -/
theorem causedBy_of_evaluateToken {op : Operator} (hop : Token.operator op ∈ ts)
    {values : List Double} (h : evaluateToken values (Token.operator op) = .error fault) :
    CausedBy ts fault := by
  by_cases hshort : values.length < 2
  · rw [evaluateToken_of_short hshort] at h
    obtain rfl := Except.error.inj h
    exact .missingOperand hop
  · obtain ⟨y, x, rest, rfl⟩ := exists_two_of_long (Nat.not_lt.1 hshort)
    rw [evaluateToken_operator] at h
    exact causedBy_of_perform hop (of_map_error h)

/-- A token that can be worked off is refused as an operator. -/
theorem Workable.causedBy {t : Token} (ht : Workable t) (hmem : t ∈ ts) {values : List Double}
    (h : evaluateToken values t = .error fault) : CausedBy ts fault := by
  rcases ht with ⟨ho, x, hx⟩ | ⟨op, rfl⟩
  · rw [evaluateToken_operand ho, hx] at h
    cases h
  · exact causedBy_of_evaluateToken hmem h

/-- Values are left over only if there was more than one operand: no operation makes two values of
two. -/
theorem causedBy_of_resultOf {values : List Double}
    (hvalues : (reorder ts).foldlM evaluateToken [] = .ok values)
    (h : resultOf values = .error fault) : CausedBy ts fault := by
  obtain ⟨hlength, -⟩ := length_foldlM hvalues
  rw [countP_isOperand_reorder, List.length_nil, Nat.zero_add] at hlength
  unfold resultOf at h
  split at h
  · cases h
  · cases h
  · next hnil hone =>
    obtain rfl := Except.error.inj h
    refine .missingOperator ?_
    rcases values with _ | ⟨x, _ | ⟨y, values⟩⟩
    · exact absurd rfl hnil
    · exact absurd rfl (hone x)
    · simp only [List.length_cons] at hlength
      omega

/-- A row is refused at one of the tokens that are worked off, or because values are left over. -/
theorem evaluate_causedBy (hts : ∀ t ∈ ts, t.Checked) (h : evaluate ts = .error fault) :
    CausedBy ts fault := by
  rw [evaluate, toQueue_of_known (known_of_checked hts)] at h
  rcases of_bind_error (show _ >>= resultOf = _ from h) with hfold | ⟨values, hvalues, hresult⟩
  · obtain ⟨t, ht, values, hfault⟩ := exists_of_foldlM_error hfold
    obtain ⟨hmem, hterm⟩ := mem_reorder.1 ht
    exact (workable_of_checked (hts t hmem) hterm).causedBy hmem hfault
  · exact causedBy_of_resultOf hvalues hresult

/-! ## How evaluation ends -/

/-- However its tokens are arranged, a checked row can be brought into the order of evaluation, and
nothing but operands that can be read and known operators is worked off. Evaluating it gives a
double, the text of which is that of a number again, or refuses it for a division by zero, for its
form or for leaving the range of doubles. -/
theorem evaluate_ends (hts : ∀ t ∈ ts, t.Checked) :
    (∃ queue, toQueue ts = .ok queue ∧ ∀ t ∈ queue, Workable t) ∧
      ((∃ x, evaluate ts = .ok x ∧ ∃ y, Number.read x.resultText = .ok y) ∨
        ∃ fault, evaluate ts = .error fault ∧ CausedBy ts fault ∧
          (fault.kind = .divisionByZero ∨ fault.kind = .malformed ∨ fault.kind = .overflow)) := by
  refine ⟨exists_workable_queue hts, ?_⟩
  cases hx : evaluate ts with
  | ok x => exact .inl ⟨x, rfl, x.exists_read_resultText⟩
  | error fault =>
    have hcause := evaluate_causedBy hts hx
    exact .inr ⟨fault, rfl, hcause, hcause.kind_eq⟩

/-- `) 2 ÷ ( 0 +`: neither mark has a partner, and the row ends with an operator. -/
def scrambled : Expression :=
  [Token.grouping .closing, number "2", Token.operator .divide, Token.grouping .opening, number "0",
    Token.operator .add]

/-- The sum is found between the numbers, and the division lacks an operand. -/
theorem evaluate_ends_of_scrambled :
    (∀ t ∈ scrambled, t.Checked) ∧ evaluate scrambled = .error (.missingOperand "÷") ∧
      CausedBy scrambled (.missingOperand "÷") := by
  have hnumber (text : String) (h : Token.operand text .blank none = .ok (number text)) :
      (number text).Checked := .operand h
  have hts : ∀ t ∈ scrambled, t.Checked := by
    simp only [scrambled, List.forall_mem_cons]
    exact ⟨.grouping _, hnumber "2" (by decide +kernel), .operator _, .grouping _,
      hnumber "0" (by decide +kernel), .operator _, fun t ht => absurd ht List.not_mem_nil⟩
  have hresult : evaluate scrambled = .error (.missingOperand "÷") := by decide +kernel
  obtain ⟨-, ⟨x, hx, -⟩ | ⟨fault, hfault, hcause, -⟩⟩ := evaluate_ends hts
  · cases hx.symm.trans hresult
  · obtain rfl := Except.error.inj (hfault.symm.trans hresult)
    exact ⟨hts, hresult, hcause⟩

end Expression

end Keypad
