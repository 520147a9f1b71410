import Keypad.Expression.Tree

/-!
# The order of evaluation follows the grammar

A row that is written out from a parse tree is reordered into the postorder of the tree, and its
value is the value of the tree. The stack of waiting tokens is related to the tree by `Absorbs`:
once the row of a subtree has been read, the front of its postorder is out, and the operators at the
end of it are all that has been put to wait on top of what waited before.

* `Derives.absorbs`      — reading the row of a derived tree absorbs the tree.
* `reorder_tokens`       — the reordered row is the postorder.
* `evaluateQueue_postorder` — working off the postorder computes the tree.
-/

namespace Keypad.Expression

open Reordering

namespace Tree

/-- Whether every leaf of the tree is of a kind. -/
def All {α : Type} (p : α → Prop) : Tree α → Prop
  | leaf a => p a
  | group inside => inside.All p
  | node _ left right => left.All p ∧ right.All p

end Tree

/-- How tightly an operator has to bind to stand at this level of the grammar. -/
def Level.strength : Level → Nat
  | .sum => Operator.add.precedence
  | .product => Operator.multiply.precedence
  | .factor => Operator.multiply.precedence + 1

/-- The operators of a product bind as tightly as its level asks for. -/
theorem Level.strength_product {op : Operator} (h : op = .multiply ∨ op = .divide) :
    Level.strength .product = op.precedence := by
  rcases h with rfl | rfl <;> rfl

theorem Level.strength_sum {op : Operator} (h : op = .add ∨ op = .subtract) :
    Level.strength .sum = op.precedence := by
  rcases h with rfl | rfl <;> rfl

/-! ## What one token does to the stack -/

namespace Reordering

/-- An operand goes out at once. -/
theorem step_operand {t : Token} (h : t.isOperand = true) (r : Reordering) :
    r.step t = ⟨r.output ++ [t], r.waiting⟩ := by
  rw [step, if_pos h]

theorem binding_operator (op : Operator) : binding (Token.operator op) = op.precedence := by
  rw [binding, Token.ofSymbol?_operator]
  rfl

/-- An operator takes out what goes before it, and waits. -/
theorem step_operator (op : Operator) (r : Reordering) :
    r.step (Token.operator op) =
      ⟨r.output ++ r.waiting.takeWhile (goesBefore op.precedence),
        Token.operator op :: r.waiting.dropWhile (goesBefore op.precedence)⟩ := by
  rw [step, binding_operator]
  rfl

theorem step_opening (r : Reordering) :
    r.step (Token.grouping .opening) = ⟨r.output, Token.grouping .opening :: r.waiting⟩ := rfl

/-- A closing mark takes out what waits above the next opening mark, and the mark with it. -/
theorem step_closing (r : Reordering) :
    r.step (Token.grouping .closing) =
      ⟨r.output ++ r.waiting.takeWhile (!·.isOpening),
        (r.waiting.dropWhile (!·.isOpening)).tail⟩ := rfl

/-- A waiting operator goes before one that binds no tighter. -/
theorem goesBefore_operator (strength : Nat) (op : Operator) :
    goesBefore strength (Token.operator op) = decide (strength ≤ op.precedence) := by
  rw [goesBefore, binding_operator]
  rfl

/-- What goes before an operator goes before one that binds less tightly. -/
theorem goesBefore_of_le {weak strong : Nat} (h : weak ≤ strong) {t : Token}
    (ht : goesBefore strong t = true) : goesBefore weak t = true := by
  simp only [goesBefore, Bool.and_eq_true, decide_eq_true_eq] at ht ⊢
  exact ⟨ht.1, Nat.le_trans h ht.2⟩

/-- A token that goes before operators is no opening mark. -/
theorem isOpening_of_goesBefore {strength : Nat} {t : Token} (h : goesBefore strength t = true) :
    t.isOpening = false := by
  simp only [goesBefore, Token.isOperator, Bool.and_eq_true, beq_iff_eq] at h
  rw [Token.isOpening, h.1]
  rfl

end Reordering

/-! ## The invariant of the stack -/

/-- From `r` to `r'` a row has been read whose order of evaluation is `queue`: a front of it is out,
and the rest are operators of at least this strength that wait on top of what waited before. -/
def Absorbs (strength : Nat) (queue : Expression) (r r' : Reordering) : Prop :=
  ∃ front ops, r' = ⟨r.output ++ front, ops ++ r.waiting⟩ ∧ front ++ ops = queue ∧
    ∀ op ∈ ops, goesBefore strength op = true

/-- The waiting token on top, if there is one, does not go before an operator of this strength. -/
def Holds (strength : Nat) (r : Reordering) : Prop :=
  r.waiting.takeWhile (goesBefore strength) = []

/-- What is absorbed at one strength is absorbed at any that is weaker. -/
theorem Absorbs.weaken {weak strong : Nat} {queue : Expression} {r r' : Reordering}
    (h : weak ≤ strong) (ha : Absorbs strong queue r r') : Absorbs weak queue r r' := by
  obtain ⟨front, ops, hr, hq, hops⟩ := ha
  exact ⟨front, ops, hr, hq, fun op hop => goesBefore_of_le h (hops op hop)⟩

/-- A stack that holds against operators holds against those that bind tighter. -/
theorem Holds.strengthen {weak strong : Nat} {r : Reordering} (h : weak ≤ strong)
    (hr : Holds weak r) : Holds strong r := by
  unfold Holds at hr ⊢
  cases hw : r.waiting with
  | nil => rfl
  | cons t ts =>
    rw [hw, List.takeWhile_cons] at hr
    rw [List.takeWhile_cons, if_neg]
    intro ht
    rw [if_pos (goesBefore_of_le h ht)] at hr
    exact absurd hr (List.cons_ne_nil _ _)

/-- A waiting operator that binds less tightly holds. -/
theorem holds_operator {strength : Nat} {op : Operator} (h : op.precedence < strength)
    (output waiting : Expression) : Holds strength ⟨output, Token.operator op :: waiting⟩ := by
  rw [Holds, List.takeWhile_cons, goesBefore_operator, decide_eq_false (by omega)]
  rfl

/-- An operator behind the row of its left side takes all that waits of that side out. -/
theorem Absorbs.step_operator {queue : Expression} {r r' : Reordering} {op : Operator}
    (h : Absorbs op.precedence queue r r') (hr : Holds op.precedence r) :
    r'.step (Token.operator op) = ⟨r.output ++ queue, Token.operator op :: r.waiting⟩ := by
  obtain ⟨front, ops, rfl, rfl, hops⟩ := h
  have hdrop : r.waiting.dropWhile (goesBefore op.precedence) = r.waiting := by
    have hsplit := List.takeWhile_append_dropWhile (p := goesBefore op.precedence) (l := r.waiting)
    rwa [show r.waiting.takeWhile (goesBefore op.precedence) = [] from hr,
      List.nil_append] at hsplit
  rw [Reordering.step_operator, List.takeWhile_append_of_pos hops,
    List.dropWhile_append_of_pos hops, show r.waiting.takeWhile _ = [] from hr, hdrop,
    List.append_nil, List.append_assoc]

/-- An operator between the rows of its two sides makes one tree of them. The right side is of a
higher level, so none of its operators makes this one go out early. -/
theorem Absorbs.node {left right : Expression} {op : Operator} {r r₁ r₂ : Reordering}
    (hl : Absorbs op.precedence left r r₁) (hr : Holds op.precedence r)
    (h : Absorbs (op.precedence + 1) right (r₁.step (Token.operator op)) r₂) :
    Absorbs op.precedence (left ++ right ++ [Token.operator op]) r r₂ := by
  rw [hl.step_operator hr] at h
  obtain ⟨front, ops, rfl, rfl, hops⟩ := h
  refine ⟨left ++ front, ops ++ [Token.operator op], ?_, ?_, ?_⟩
  · simp only [List.append_assoc, List.cons_append, List.nil_append]
  · simp only [List.append_assoc]
  · intro t ht
    rcases List.mem_append.1 ht with ht | ht
    · exact goesBefore_of_le (Nat.le_succ _) (hops t ht)
    · rw [List.mem_singleton.1 ht, goesBefore_operator, decide_eq_true (Nat.le_refl _)]

/-- A closing mark takes out what waits of its group, and the opening mark with it. -/
theorem Absorbs.group {strength : Nat} {queue : Expression} {r r' : Reordering}
    (h : Absorbs strength queue (r.step (Token.grouping .opening)) r') (n : Nat) :
    Absorbs n queue r (r'.step (Token.grouping .closing)) := by
  rw [step_opening] at h
  obtain ⟨front, ops, rfl, rfl, hops⟩ := h
  have hinner : ∀ op ∈ ops, (!op.isOpening) = true := fun op hop => by
    rw [isOpening_of_goesBefore (hops op hop)]
    rfl
  refine ⟨front ++ ops, [], ?_, List.append_nil _, by simp⟩
  rw [step_closing, List.takeWhile_append_of_pos hinner, List.dropWhile_append_of_pos hinner,
    List.takeWhile_cons, List.dropWhile_cons]
  simp only [show (Token.grouping .opening).isOpening = true from rfl, Bool.not_true,
    Bool.false_eq_true, if_false, List.append_nil, List.tail_cons, List.nil_append,
    List.append_assoc]

/-- Reading the row of a tree absorbs the tree. The induction is on the derivation; at each level
the stack holds against the operators of that level when the row begins. -/
theorem Tree.Derives.absorbs {l : Level} {t : Tree Token} (h : Derives l t)
    (ht : t.All (·.isOperand = true)) {r : Reordering} (hr : Holds l.strength r) :
    Absorbs l.strength t.postorder r (t.tokens.foldl Reordering.step r) := by
  induction h generalizing r with
  | leaf a =>
    refine ⟨[a], [], ?_, rfl, by simp⟩
    simp only [Tree.tokens, List.foldl_cons, List.foldl_nil, step_operand ht, List.nil_append]
  | group he ih =>
    simp only [Tree.tokens, List.foldl_cons, List.foldl_append, List.foldl_nil]
    exact (ih ht (r := r.step (Token.grouping .opening)) rfl).group _
  | product hf ih =>
    exact (ih ht (hr.strengthen (Nat.le_succ _))).weaken (Nat.le_succ _)
  | @multiply t f op hop hl hf ihl ihf =>
    simp only [Tree.tokens, List.foldl_append, List.foldl_cons]
    have hleft := ihl ht.1 hr
    have hfactor : Level.strength .factor = op.precedence + 1 :=
      congrArg (· + 1) (Level.strength_product hop)
    rw [Level.strength_product hop] at hleft hr ⊢
    -- the right side is read on top of the operator, which holds against its level
    refine hleft.node hr ?_
    rw [hleft.step_operator hr, ← hfactor]
    exact ihf ht.2 (holds_operator (hfactor ▸ Nat.lt_succ_self _) _ _)
  | sum hp ih =>
    exact (ih ht (hr.strengthen (by decide))).weaken (by decide)
  | @add e t op hop hl hp ihl ihp =>
    simp only [Tree.tokens, List.foldl_append, List.foldl_cons]
    have hleft := ihl ht.1 hr
    have hproduct : Level.strength .product = op.precedence + 1 :=
      congrArg (· + 1) (Level.strength_sum hop)
    rw [Level.strength_sum hop] at hleft hr ⊢
    -- so it is here, one level further out
    refine hleft.node hr ?_
    rw [hleft.step_operator hr, ← hproduct]
    exact ihp ht.2 (holds_operator (hproduct ▸ Nat.lt_succ_self _) _ _)

/-! ## The queue of a tree and its value -/

/-- A row written out from a tree is reordered into the postorder of the tree. -/
theorem reorder_tokens {t : Tree Token} (h : t.Derives .sum) (ht : t.All (·.isOperand = true)) :
    reorder t.tokens = t.postorder := by
  -- on an empty stack nothing but the operators of the row is left to wait
  obtain ⟨front, ops, hfold, hqueue, hops⟩ := h.absorbs ht (r := ⟨[], []⟩) rfl
  have hfilter : ops.filter Token.isOperator = ops := by
    refine List.filter_eq_self.2 fun op hop => ?_
    exact (Bool.and_eq_true_iff.1 (hops op hop)).1
  rw [reorder, hfold, finish, List.nil_append, List.append_nil, hfilter, hqueue]

/-- The first unknown operator is that of the front, if there is one. -/
theorem unknownOperator?_append (ts us : Expression) :
    unknownOperator? (ts ++ us) = (unknownOperator? ts).or (unknownOperator? us) :=
  List.find?_append

@[simp] theorem unknownOperator?_operator (op : Operator) :
    unknownOperator? [Token.operator op] = none := by
  simp [unknownOperator?]

@[simp] theorem unknownOperator?_grouping (mark : Mark) :
    unknownOperator? [Token.grouping mark] = none := by
  rw [unknownOperator?, List.find?_singleton, Token.isOperator_grouping]
  rfl

/-- A row written out from a tree has no unknown operators. -/
theorem unknownOperator?_tokens {t : Tree Token} (ht : t.All (·.isOperand = true)) :
    unknownOperator? t.tokens = none := by
  induction t with
  | leaf a =>
    have ha : a.isOperator = false :=
      Bool.eq_false_iff.2 fun hop => by cases ht.symm.trans (Token.isOperand_of_isOperator hop)
    simp [unknownOperator?, Tree.tokens, ha]
  | group e ih =>
    rw [Tree.tokens, ← List.singleton_append, unknownOperator?_append, unknownOperator?_append,
      unknownOperator?_grouping, unknownOperator?_grouping, ih ht]
    rfl
  | node op l r ihl ihr =>
    rw [Tree.tokens, ← List.singleton_append, unknownOperator?_append, unknownOperator?_append,
      unknownOperator?_operator, ihl ht.1, ihr ht.2]
    rfl

/-- So the postorder is the order of evaluation of the row. -/
theorem toQueue_tokens {t : Tree Token} (h : t.Derives .sum) (ht : t.All (·.isOperand = true)) :
    toQueue t.tokens = .ok t.postorder := by
  rw [toQueue, unknownOperator?_tokens ht, reorder_tokens h ht]

/-- An operand is read and put on the stack. -/
theorem evaluateToken_operand {t : Token} (h : t.isOperand = true) (values : List Double) :
    evaluateToken values t = (Number.read t.value).map (· :: values) := by
  unfold evaluateToken
  rw [if_pos h]

/-- An operator is applied to the two values on top, the upper one on its right. -/
theorem evaluateToken_operator (op : Operator) (x y : Double) (values : List Double) :
    evaluateToken (y :: x :: values) (Token.operator op) = (op.perform x y).map (· :: values) := by
  unfold evaluateToken
  rw [Token.isOperand_operator, if_neg Bool.false_ne_true]
  simp only [applySymbol, Token.ofSymbol?_operator]

/-- Working off the postorder of a tree puts its value on the stack. The stack below and what comes
next in the queue are arbitrary, so that the two sides of an operator compose. -/
theorem foldlM_postorder {t : Tree Token} (ht : t.All (·.isOperand = true)) (values : List Double)
    (rest : Expression) :
    (t.postorder ++ rest).foldlM evaluateToken values =
      t.value >>= fun x => rest.foldlM evaluateToken (x :: values) := by
  induction t generalizing values rest with
  | leaf a =>
    rw [Tree.postorder, List.cons_append, List.nil_append, List.foldlM_cons,
      evaluateToken_operand ht, Tree.value]
    cases Number.read a.value <;> rfl
  | group e ih => exact ih ht values rest
  | node op l r ihl ihr =>
    rw [Tree.postorder, List.append_assoc, List.append_assoc, ihl ht.1, Tree.value, bind_assoc]
    refine bind_congr fun x => ?_
    rw [ihr ht.2, bind_assoc]
    refine bind_congr fun y => ?_
    rw [List.cons_append, List.nil_append, List.foldlM_cons, evaluateToken_operator]
    cases op.perform x y <;> rfl

/-- The value of the postorder of a tree is the value of the tree. -/
theorem evaluateQueue_postorder {t : Tree Token} (ht : t.All (·.isOperand = true)) :
    evaluateQueue t.postorder = t.value := by
  have h := foldlM_postorder ht [] []
  rw [List.append_nil] at h
  rw [evaluateQueue, h]
  cases t.value <;> rfl

/-- Evaluating the row of a tree gives what computing the tree gives. -/
theorem evaluate_tokens {t : Tree Token} (h : t.Derives .sum) (ht : t.All (·.isOperand = true)) :
    evaluate t.tokens = t.value := by
  rw [evaluate, toQueue_tokens h ht]
  exact evaluateQueue_postorder ht

/-- The row of a tree of the grammar is brought into the postorder of the tree, and evaluating it
gives what computing the tree gives: the same number, or the same fault. The operands may be of any
text. -/
theorem evaluation_follows_grammar {t : Tree Token} (h : t.Derives .sum)
    (ht : t.All (·.isOperand = true)) :
    toQueue t.tokens = .ok t.postorder ∧ evaluate t.tokens = t.value :=
  ⟨toQueue_tokens h ht, evaluate_tokens h ht⟩

/-- `9 - 4 - 6 ÷ (1 - 1)`: two operators of one level, one that binds tighter, and a group that
makes its divisor zero. -/
theorem evaluation_follows_grammar_of_quotient :
    let number text := Tree.leaf (Token.plain .operand text .blank none)
    let t := Tree.node .subtract (.node .subtract (number "9") (number "4"))
      (.node .divide (number "6") (.group (.node .subtract (number "1") (number "1"))))
    toQueue t.tokens = .ok t.postorder ∧ evaluate t.tokens = t.value :=
  evaluation_follows_grammar
    (.add (.inr rfl)
      (.add (.inr rfl) (.sum (.product (.leaf _))) (.product (.leaf _)))
      (.multiply (.inr rfl) (.product (.leaf _))
        (.group (.add (.inr rfl) (.sum (.product (.leaf _))) (.product (.leaf _))))))
    ⟨⟨rfl, rfl⟩, rfl, rfl, rfl⟩

end Keypad.Expression
