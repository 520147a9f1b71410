import Keypad.Expression.Evaluation

/-!
# What evaluation reads of a token

Evaluation asks a token for its kind and its text and for nothing else. So a change to the tokens
that leaves both as they are goes through every stage (`reorder_map`, `evaluateQueue_map`), and the
value of the row stays what it was (`evaluate_map`).
-/

namespace Keypad.Expression

/-- A change to tokens that leaves their kinds and texts as they are. -/
structure Superficial (f : Token → Token) : Prop where
  kind : ∀ t, (f t).kind = t.kind
  value : ∀ t, (f t).value = t.value

variable {f : Token → Token}

namespace Superficial

/-- The sort of a token stays, so operands stay operands. -/
theorem isOperand_eq (h : Superficial f) (t : Token) : (f t).isOperand = t.isOperand := by
  rw [Token.isOperand, h.kind, Token.isOperand]

theorem isOperator_eq (h : Superficial f) (t : Token) : (f t).isOperator = t.isOperator := by
  rw [Token.isOperator, h.kind, Token.isOperator]

/-- Opening marks stay opening marks, since sort and text stay. -/
theorem isOpening_eq (h : Superficial f) (t : Token) : (f t).isOpening = t.isOpening := by
  rw [Token.isOpening, h.kind, h.value, Token.isOpening]

theorem isClosing_eq (h : Superficial f) (t : Token) : (f t).isClosing = t.isClosing := by
  rw [Token.isClosing, h.kind, h.value, Token.isClosing]

/-- How tightly a token binds is told by its text. -/
theorem binding_eq (h : Superficial f) (t : Token) : binding (f t) = binding t := by
  rw [binding, h.value, binding]

/-- What goes out before an operator is told by its text. -/
theorem goesBefore_eq (h : Superficial f) (strength : Nat) (t : Token) :
    Reordering.goesBefore strength (f t) = Reordering.goesBefore strength t := by
  rw [Reordering.goesBefore, h.isOperator_eq, h.binding_eq, Reordering.goesBefore]

end Superficial

/-- The reordering with every token changed. -/
def Reordering.map (f : Token → Token) (r : Reordering) : Reordering :=
  ⟨r.output.map f, r.waiting.map f⟩

/-- One step of reordering moves the tokens about and looks at nothing but their sorts and texts. -/
theorem Reordering.step_map (h : Superficial f) (r : Reordering) (t : Token) :
    (r.map f).step (f t) = (r.step t).map f := by
  have hbefore : goesBefore (binding t) ∘ f = goesBefore (binding t) :=
    funext fun t' => h.goesBefore_eq (binding t) t'
  have hopening : (fun t' : Token => !t'.isOpening) ∘ f = fun t' => !t'.isOpening :=
    funext fun t' => congrArg (!·) (h.isOpening_eq t')
  unfold step
  rw [h.isOperand_eq, h.isOperator_eq, h.isOpening_eq, h.isClosing_eq, h.binding_eq]
  split
  · simp only [map, List.map_append, List.map_cons, List.map_nil]
  · split
    · simp only [map, List.map_append, List.map_cons, List.takeWhile_map, List.dropWhile_map,
        hbefore]
    · split
      · rfl
      · split
        · simp only [map, List.map_append, List.takeWhile_map, List.dropWhile_map, hopening,
            List.map_tail]
        · rfl

/-- Reading a whole row commutes with a superficial change. -/
theorem foldl_step_map (h : Superficial f) (r : Reordering) (ts : Expression) :
    (ts.map f).foldl Reordering.step (r.map f) = (ts.foldl Reordering.step r).map f := by
  induction ts generalizing r with
  | nil => rfl
  | cons t ts ih =>
    rw [List.map_cons, List.foldl_cons, Reordering.step_map h, ih]
    rfl

/-- The order of evaluation of a changed row is the changed order of evaluation. -/
theorem reorder_map (h : Superficial f) (ts : Expression) :
    reorder (ts.map f) = (reorder ts).map f := by
  have hoperator : Token.isOperator ∘ f = Token.isOperator := funext h.isOperator_eq
  have hfold := foldl_step_map h ⟨[], []⟩ ts
  rw [reorder, show (⟨[], []⟩ : Reordering) = Reordering.map f ⟨[], []⟩ from rfl, hfold]
  simp only [reorder, Reordering.finish, Reordering.map, List.map_append, List.filter_map,
    hoperator]

/-- A changed row has an order of evaluation if the row had one. -/
theorem toQueue_map (h : Superficial f) (ts : Expression) :
    toQueue (ts.map f) = (toQueue ts).map (List.map f) := by
  have hunknown : unknownOperator? (ts.map f) = (unknownOperator? ts).map f := by
    rw [unknownOperator?, unknownOperator?, List.find?_map]
    congr 2
    funext t
    simp only [Function.comp_apply, h.isOperator_eq, h.value]
  unfold toQueue
  rw [hunknown]
  cases unknownOperator? ts with
  | none => exact congrArg _ (reorder_map h ts)
  | some t =>
    simp only [Option.map_some, h.value]
    rfl

/-- Working a token off reads nothing but its text. -/
theorem evaluateToken_map (h : Superficial f) (values : List Double) (t : Token) :
    evaluateToken values (f t) = evaluateToken values t := by
  unfold evaluateToken
  rw [h.isOperand_eq, h.value]

/-- A queue that is changed superficially has the same value, or the same fault. -/
theorem evaluateQueue_map (h : Superficial f) (queue : Expression) :
    evaluateQueue (queue.map f) = evaluateQueue queue := by
  unfold evaluateQueue
  rw [List.foldlM_map]
  simp only [evaluateToken_map h]

/-- The value of a row does not change with what evaluation does not read. -/
theorem evaluate_map (h : Superficial f) (ts : Expression) :
    evaluate (ts.map f) = evaluate ts := by
  unfold evaluate
  rw [toQueue_map h]
  cases toQueue ts with
  | error fault => rfl
  | ok queue => exact evaluateQueue_map h queue

end Keypad.Expression
