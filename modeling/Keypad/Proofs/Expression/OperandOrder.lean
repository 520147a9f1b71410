import Keypad.Proofs.Expression.Conservation

/-!
# What becomes of the tokens of a row

Whatever a row looks like, its order of evaluation holds the same operands and operators and no
mark (`reorder_perm`). An operand goes out as soon as it is read, and what waits and goes out later
are operators only; so the operands keep their places among each other (`filter_isOperand_reorder`).
Only a row with an operator that is none has no order of evaluation at all (`toQueue_conserves`).
-/

namespace Keypad.Expression

namespace Reordering

variable {r : Reordering}

theorem Tidy.isOperand_eq_false (h : r.Tidy) {w : Token} (hw : w ∈ r.waiting) :
    w.isOperand = false :=
  (h w hw).elim Token.isOperand_of_isOperator Token.isOperand_of_isOpening

/-- No operand waits, so none goes out with what waits. -/
theorem Tidy.filter_output_append (h : r.Tidy) {out : List Token} (hout : out ⊆ r.waiting) :
    (r.output ++ out).filter Token.isOperand = r.output.filter Token.isOperand := by
  have hnone : out.filter Token.isOperand = [] :=
    List.filter_eq_nil_iff.2 fun w hw => Bool.eq_false_iff.1 (h.isOperand_eq_false (hout hw))
  rw [List.filter_append, hnone, List.append_nil]

/-- A token that is read adds itself to the operands that are out, if it is one. -/
theorem Tidy.filter_output_step (h : r.Tidy) (t : Token) :
    (r.step t).output.filter Token.isOperand =
      r.output.filter Token.isOperand ++ [t].filter Token.isOperand := by
  unfold Reordering.step
  split
  · exact List.filter_append _ _
  · next ho =>
    rw [List.filter_cons_of_neg ho, List.filter_nil, List.append_nil]
    split
    · exact h.filter_output_append (List.takeWhile_subset _)
    · split
      · rfl
      · split
        · exact h.filter_output_append (List.takeWhile_subset _)
        · rfl

/-- So reading a row adds its operands to those that are out, in their order. -/
theorem Tidy.filter_output_foldl (h : r.Tidy) (ts : Expression) :
    (ts.foldl Reordering.step r).output.filter Token.isOperand =
      r.output.filter Token.isOperand ++ ts.filter Token.isOperand := by
  induction ts generalizing r with
  | nil => exact (List.append_nil _).symm
  | cons t ts ih =>
    rw [List.foldl_cons, ih (h.step t), h.filter_output_step, List.append_assoc,
      ← List.filter_append, List.singleton_append]

/-- What is left waiting at the end goes out as far as it is no mark. -/
theorem filter_isOperand_finish (r : Reordering) :
    r.finish.filter Token.isOperand = r.output.filter Token.isOperand := by
  have hnone : (r.waiting.filter Token.isOperator).filter Token.isOperand = [] := by
    refine List.filter_eq_nil_iff.2 fun w hw => Bool.eq_false_iff.1 ?_
    exact Token.isOperand_of_isOperator (List.mem_filter.1 hw).2
  rw [finish, List.filter_append, hnone, List.append_nil]

end Reordering

/-- The operands of the order of evaluation are those of the row, in the order of the row. -/
theorem filter_isOperand_reorder (ts : Expression) :
    (reorder ts).filter Token.isOperand = ts.filter Token.isOperand := by
  rw [reorder, Reordering.filter_isOperand_finish, Reordering.tidy_start.filter_output_foldl]
  rfl

/-- There is no mark in the order of evaluation. -/
theorem kind_ne_of_mem_reorder {ts : Expression} {t : Token} (ht : t ∈ reorder ts) :
    t.kind ≠ .grouping := by
  have hterm := (List.mem_filter.1 ((reorder_perm ts).mem_iff.1 ht)).2
  intro hkind
  rw [Token.isTerm, Token.isOperand, Token.isOperator, hkind] at hterm
  cases hterm

/-- A row has an order of evaluation if and only if every operator in it is one of the four, whether
it is well formed or not. The order then holds no mark, it holds every operand and operator as often
as the row does, and the operands in the order of the row. -/
theorem toQueue_conserves (ts : Expression) :
    ((∃ queue, toQueue ts = .ok queue) ↔
        ∀ t ∈ ts, t.isOperator = true → ∃ op : Operator, t.value = op.symbol) ∧
      ∀ queue, toQueue ts = .ok queue →
        (∀ t ∈ queue, t.kind ≠ .grouping) ∧
          queue.Perm (ts.filter Token.isTerm) ∧
          queue.filter Token.isOperand = ts.filter Token.isOperand := by
  refine ⟨⟨fun ⟨queue, hqueue⟩ => known_of_toQueue hqueue,
    fun hknown => ⟨reorder ts, toQueue_of_known hknown⟩⟩, fun queue hqueue => ?_⟩
  obtain rfl := eq_reorder_of_toQueue hqueue
  exact ⟨fun t => kind_ne_of_mem_reorder, reorder_perm ts, filter_isOperand_reorder ts⟩

end Keypad.Expression
