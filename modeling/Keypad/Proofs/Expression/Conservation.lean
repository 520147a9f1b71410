import Keypad.Expression.Evaluation
import Mathlib.Data.List.TakeWhile

/-!
# What reordering keeps and what evaluation refuses

Reordering moves tokens about and drops the grouping marks, and does nothing else: the queue is a
permutation of the operands and operators of the row. So a row of checked tokens gives a queue of
checked tokens, every operand of which can be read and every operator of which is known, and what
can still go wrong when it is worked off is one of four things.

* `reorder_perm`        — the queue holds the operands and operators of the row.
* `evaluate_isRefusal`  — the faults that evaluating checked tokens can end in.
* `isTold_of_evaluate`  — a row of known operators fails for something that the user is told.
* `countP_of_evaluate`  — a row with a value has one operand more than operators.
-/

namespace Keypad

/-! ## Results that may be faults -/

section Results

variable {α β : Type} {x : Except Fault α}

/-- A sequence with a result has results in both of its parts. -/
theorem exists_of_bind_ok {f : α → Except Fault β} {b : β} (h : x >>= f = .ok b) :
    ∃ a, x = .ok a ∧ f a = .ok b := by
  cases x with
  | error fault => cases h
  | ok a => exact ⟨a, rfl, h⟩

/-- A sequence fails in its first part or, behind a result of that, in its second. -/
theorem of_bind_error {f : α → Except Fault β} {fault : Fault} (h : x >>= f = .error fault) :
    x = .error fault ∨ ∃ a, x = .ok a ∧ f a = .error fault := by
  cases x with
  | error fault' => exact .inl (congrArg _ (Except.error.inj h))
  | ok a => exact .inr ⟨a, rfl, h⟩

/-- A changed result comes from a result. -/
theorem exists_of_map_ok {f : α → β} {b : β} (h : x.map f = .ok b) : ∃ a, x = .ok a ∧ f a = b := by
  cases x with
  | error fault => cases h
  | ok a => exact ⟨a, rfl, Except.ok.inj h⟩

/-- A fault is not changed. -/
theorem of_map_error {f : α → β} {fault : Fault} (h : x.map f = .error fault) :
    x = .error fault := by
  cases x with
  | error fault' => exact congrArg _ (Except.error.inj h)
  | ok a => cases h

/-- What stops a fold is one of its steps. -/
theorem exists_of_foldlM_error {f : β → α → Except Fault β} {as : List α} {b : β} {fault : Fault}
    (h : as.foldlM f b = .error fault) : ∃ a ∈ as, ∃ b, f b a = .error fault := by
  induction as generalizing b with
  | nil => cases h
  | cons a as ih =>
    rw [List.foldlM_cons] at h
    rcases of_bind_error h with ha | ⟨b', -, h⟩
    · exact ⟨a, List.mem_cons_self, b, ha⟩
    · obtain ⟨a', ha', hfault⟩ := ih h
      exact ⟨a', List.mem_cons_of_mem _ ha', hfault⟩

end Results

/-- The faults of arithmetic: a zero divisor, and a result that is no finite number. -/
inductive Fault.IsArithmetic : Fault → Prop where
  | divisionByZero : IsArithmetic .divisionByZero
  | outOfRange : IsArithmetic .outOfRange

/-- An operation is refused for its divisor or for its result. -/
theorem Operator.isArithmetic_of_perform {op : Operator} {x y : Double} {fault : Fault}
    (h : op.perform x y = .error fault) : fault.IsArithmetic := by
  unfold Operator.perform at h
  split at h
  · obtain rfl := Except.error.inj h
    exact .divisionByZero
  · unfold Number.toDouble at h
    split at h
    · cases h
    · obtain rfl := Except.error.inj h
      exact .outOfRange
    · obtain rfl := Except.error.inj h
      exact .outOfRange

namespace Token

/-- A token made by one of the constructors that check its text. -/
inductive Checked : Token → Prop where
  | operand {value : String} {naming : Naming} {ident : Option String} {t : Token}
      (h : Token.operand value naming ident = .ok t) : Checked t
  | operator (op : Operator) : Checked (Token.operator op)
  | grouping (mark : Mark) : Checked (Token.grouping mark)

/-- Whether the token takes part in a calculation. Marks only group. -/
def isTerm (t : Token) : Bool := t.isOperand || t.isOperator

variable {t : Token}

/-- What takes part in a calculation and is no operand is an operator. -/
theorem isOperator_of_isTerm (h : t.isTerm = true) (ho : t.isOperand = false) :
    t.isOperator = true := by
  rwa [isTerm, ho, Bool.false_or] at h

/-- An operand is checked by reading it, and is made of what it was to be made of. -/
theorem operand_eq_ok {value : String} {naming : Naming} {ident : Option String}
    (h : operand value naming ident = .ok t) :
    (∃ x, Number.read value = .ok x) ∧ t = plain .operand value naming ident := by
  obtain ⟨x, hread, ht⟩ := exists_of_map_ok h
  exact ⟨⟨x, hread⟩, ht.symm⟩

/-- The text of a checked operand can be read. -/
theorem Checked.exists_read (h : t.Checked) (ho : t.isOperand = true) :
    ∃ x, Number.read t.value = .ok x := by
  cases h with
  | operand h =>
    obtain ⟨hread, rfl⟩ := operand_eq_ok h
    exact hread
  | operator op => cases ho
  | grouping mark => cases ho

/-- A checked operator is one of the four. -/
theorem Checked.exists_operator (h : t.Checked) (ho : t.isOperator = true) :
    ∃ op : Operator, t = Token.operator op := by
  cases h with
  | operand h =>
    obtain ⟨-, rfl⟩ := operand_eq_ok h
    cases ho
  | operator op => exact ⟨op, rfl⟩
  | grouping mark => cases ho

end Token

namespace Expression

/-! ## Reordering loses marks only -/

namespace Reordering

/-- What waits is there to go out, or to be met by a closing mark. -/
def Tidy (r : Reordering) : Prop :=
  ∀ t ∈ r.waiting, t.isOperator = true ∨ t.isOpening = true

theorem tidy_start : Tidy ⟨[], []⟩ := fun _ ht => absurd ht List.not_mem_nil

/-- A token that is read is put to wait only if it is an operator or an opening mark. -/
theorem Tidy.step {r : Reordering} (h : r.Tidy) (t : Token) : (r.step t).Tidy := by
  intro w hw
  unfold Reordering.step at hw
  split at hw
  · exact h w hw
  · split at hw
    · next ho =>
      rcases List.mem_cons.1 hw with rfl | hw
      · exact .inl ho
      · exact h w (List.dropWhile_subset _ hw)
    · split at hw
      · next ho =>
        rcases List.mem_cons.1 hw with rfl | hw
        · exact .inr ho
        · exact h w hw
      · split at hw
        · exact h w (List.dropWhile_subset _ (List.mem_of_mem_tail hw))
        · exact h w hw

/-- The operators above the opening mark on top, and those below it, are all that wait. -/
theorem Tidy.filter_waiting {r : Reordering} (h : r.Tidy) :
    r.waiting.takeWhile (!·.isOpening) ++
        (r.waiting.dropWhile (!·.isOpening)).tail.filter Token.isOperator =
      r.waiting.filter Token.isOperator := by
  unfold Tidy at h
  generalize r.waiting = waiting at h
  induction waiting with
  | nil => rfl
  | cons w ws ih =>
    have hws := ih fun t ht => h t (List.mem_cons_of_mem _ ht)
    cases hw : w.isOpening with
    | true =>
      rw [List.takeWhile_cons, List.dropWhile_cons, List.filter_cons]
      simp only [hw, Token.isOperator_of_isOpening hw, Bool.not_true, Bool.false_eq_true, if_false,
        List.tail_cons, List.nil_append]
    | false =>
      have hop : w.isOperator = true := (h w List.mem_cons_self).resolve_right (by simp [hw])
      rw [List.takeWhile_cons, List.dropWhile_cons, List.filter_cons]
      simp only [hw, hop, Bool.not_false, if_true, List.cons_append, hws]

/-- What goes out before an operator, and the operators that stay, are all that wait. -/
theorem filter_waiting_before (strength : Nat) (waiting : List Token) :
    waiting.takeWhile (goesBefore strength) ++
        (waiting.dropWhile (goesBefore strength)).filter Token.isOperator =
      waiting.filter Token.isOperator := by
  have hbefore : ∀ w ∈ waiting.takeWhile (goesBefore strength), w.isOperator = true := fun w hw =>
    (Bool.and_eq_true_iff.1 (List.mem_takeWhile_imp (p := goesBefore strength) hw)).1
  conv => rhs; rw [← List.takeWhile_append_dropWhile (p := goesBefore strength) (l := waiting)]
  rw [List.filter_append, List.filter_eq_self.2 hbefore]

/-- A token that is read goes out or waits, unless it is a mark. -/
theorem Tidy.finish_step {r : Reordering} (h : r.Tidy) (t : Token) :
    (r.step t).finish.Perm (r.finish ++ [t].filter Token.isTerm) := by
  unfold Reordering.step
  -- an operand goes out in front of what waits, the others join or leave what waits
  split
  · next ho =>
    have hterm : t.isTerm = true := by rw [Token.isTerm, ho, Bool.true_or]
    rw [List.filter_cons_of_pos hterm, List.filter_nil]
    simp only [finish, List.append_assoc]
    exact List.perm_append_comm.append_left _
  · next ho =>
    split
    · next hop =>
      have hterm : t.isTerm = true := by rw [Token.isTerm, hop, Bool.or_true]
      rw [List.filter_cons_of_pos hterm, List.filter_nil]
      simp only [finish, List.filter_cons, hop, if_true]
      rw [← filter_waiting_before (binding t) r.waiting, List.append_assoc, List.append_assoc,
        List.append_assoc]
      have hswap (ws : List Token) : (t :: ws).Perm (ws ++ [t]) :=
        (List.perm_append_singleton t ws).symm
      exact ((hswap _).append_left _).append_left _
    · next hop =>
      have hterm : ¬t.isTerm = true := by
        rw [Token.isTerm, Bool.or_eq_true]
        exact not_or.2 ⟨ho, hop⟩
      rw [List.filter_cons_of_neg hterm, List.filter_nil, List.append_nil]
      split
      · simp only [finish, List.filter_cons, hop]
        exact .refl _
      · split
        · simp only [finish, List.append_assoc, h.filter_waiting]
          exact .refl _
        · exact .refl _

/-- What is out at the end, after what was out before, are the operands and operators of the row. -/
theorem Tidy.foldl_step {r : Reordering} (h : r.Tidy) (ts : Expression) :
    (ts.foldl Reordering.step r).finish.Perm (r.finish ++ ts.filter Token.isTerm) := by
  induction ts generalizing r with
  | nil =>
    rw [List.filter_nil, List.append_nil]
    exact .refl _
  | cons t ts ih =>
    have hrest := (ih (h.step t)).trans ((h.finish_step t).append_right _)
    rwa [List.append_assoc, ← List.filter_append, List.singleton_append] at hrest

end Reordering

open Reordering

/-- The order of evaluation holds the operands and operators of the row, each as often. -/
theorem reorder_perm (ts : Expression) : (reorder ts).Perm (ts.filter Token.isTerm) :=
  tidy_start.foldl_step ts

/-! ## Known operators -/

/-- Every operator of the row is one of the four. -/
def Known (ts : Expression) : Prop :=
  ∀ t ∈ ts, t.isOperator = true → ∃ op : Operator, t.value = op.symbol

theorem known_nil : Known [] := fun _ ht => absurd ht List.not_mem_nil

theorem known_append {ts us : Expression} : (ts ++ us).Known ↔ ts.Known ∧ us.Known :=
  List.forall_mem_append

/-- What is no operator can stand behind any row. -/
theorem Known.concat {ts : Expression} (h : ts.Known) {t : Token} (ht : t.isOperator = false) :
    Known (ts ++ [t]) :=
  known_append.2 ⟨h, List.forall_mem_singleton.2 fun hop => by cases ht.symm.trans hop⟩

/-- An operator that is one of the four can, too. -/
theorem Known.concat_operator {ts : Expression} (h : ts.Known) {t : Token} {op : Operator}
    (ht : t.value = op.symbol) : Known (ts ++ [t]) :=
  known_append.2 ⟨h, List.forall_mem_singleton.2 fun _ => ⟨op, ht⟩⟩

/-- Checked operators are all known. -/
theorem known_of_checked {ts : Expression} (hts : ∀ t ∈ ts, t.Checked) : ts.Known := by
  intro t ht hop
  obtain ⟨op, rfl⟩ := (hts t ht).exists_operator hop
  exact ⟨op, rfl⟩

/-- A row whose operators are all known has an order of evaluation. -/
theorem toQueue_of_known {ts : Expression} (hts : ts.Known) : toQueue ts = .ok (reorder ts) := by
  have hunknown : unknownOperator? ts = none := by
    refine List.find?_eq_none.2 fun t ht hunknown => ?_
    rw [Bool.and_eq_true] at hunknown
    obtain ⟨op, hop⟩ := hts t ht hunknown.1
    rw [hop, Operator.ofSymbol?_symbol] at hunknown
    cases hunknown.2
  rw [toQueue, hunknown]

/-- In a row that has an order of evaluation all operators are known. -/
theorem known_of_toQueue {ts queue : Expression} (h : toQueue ts = .ok queue) : ts.Known := by
  intro t ht hop
  unfold toQueue at h
  split at h
  · cases h
  · next hunknown =>
    have hsome := List.find?_eq_none.1 hunknown t ht
    rw [hop, Bool.true_and, Option.isNone_iff_eq_none, ← Ne, Option.ne_none_iff_exists'] at hsome
    obtain ⟨op, hsome⟩ := hsome
    exact ⟨op, Operator.eq_symbol_of_ofSymbol? hsome⟩

/-- The order of evaluation of a row, if it has one, is the reordered row. -/
theorem eq_reorder_of_toQueue {ts queue : Expression} (h : toQueue ts = .ok queue) :
    queue = reorder ts := by
  unfold toQueue at h
  split at h
  · cases h
  · exact (Except.ok.inj h).symm

/-! ## What evaluation refuses -/

/-- What evaluating a row of checked tokens can be refused for. -/
inductive IsRefusal : Fault → Prop where
  | divisionByZero : IsRefusal .divisionByZero
  | outOfRange : IsRefusal .outOfRange
  | missingOperand (op : Operator) : IsRefusal (.missingOperand op.symbol)
  | missingOperator : IsRefusal .missingOperator

/-- The user is told of every refusal. -/
theorem IsRefusal.isTold {fault : Fault} (h : IsRefusal fault) : fault.kind.isTold = true := by
  cases h <;> rfl

/-- The faults of arithmetic are among those that evaluation is refused for. -/
theorem perform_isRefusal {op : Operator} {x y : Double} {fault : Fault}
    (h : op.perform x y = .error fault) : IsRefusal fault := by
  cases Operator.isArithmetic_of_perform h with
  | divisionByZero => exact .divisionByZero
  | outOfRange => exact .outOfRange

/-- A checked operand can be read, so only an operator can be refused. -/
theorem evaluateToken_isRefusal {t : Token} (ht : t.Checked) (hterm : t.isTerm = true)
    {values : List Double} {fault : Fault} (h : evaluateToken values t = .error fault) :
    IsRefusal fault := by
  unfold evaluateToken at h
  split at h
  · next ho =>
    obtain ⟨x, hx⟩ := ht.exists_read ho
    rw [hx] at h
    cases h
  · next ho =>
    obtain ⟨op, rfl⟩ :=
      ht.exists_operator (Token.isOperator_of_isTerm hterm (Bool.eq_false_iff.2 ho))
    split at h
    · next y x rest =>
      simp only [applySymbol, Token.ofSymbol?_operator] at h
      exact perform_isRefusal (of_map_error h)
    · obtain rfl := Except.error.inj h
      exact .missingOperand op

/-- What is left on the stack can only be too much. -/
theorem eq_missingOperator_of_resultOf {values : List Double} {fault : Fault}
    (h : resultOf values = .error fault) : fault = .missingOperator := by
  unfold resultOf at h
  split at h
  · cases h
  · cases h
  · exact (Except.error.inj h).symm

/-- The tokens of the queue are the operands and operators of the row. -/
theorem mem_reorder {ts : Expression} {t : Token} :
    t ∈ reorder ts ↔ t ∈ ts ∧ t.isTerm = true := by
  rw [(reorder_perm ts).mem_iff, List.mem_filter]

/-- Where all operators are known, evaluation fails at one of the operands and operators, or because
too much is left. -/
theorem fault_of_evaluate {P : Fault → Prop} {ts : Expression} (hts : ts.Known)
    (htoken : ∀ t ∈ ts, t.isTerm = true →
      ∀ {values fault}, evaluateToken values t = .error fault → P fault)
    (hresult : P .missingOperator) {fault : Fault} (h : evaluate ts = .error fault) : P fault := by
  rw [evaluate, toQueue_of_known hts] at h
  rcases of_bind_error (show _ >>= resultOf = _ from h) with hfold | ⟨values, -, hleft⟩
  · obtain ⟨t, ht, values, hfault⟩ := exists_of_foldlM_error hfold
    obtain ⟨ht, hterm⟩ := mem_reorder.1 ht
    exact htoken t ht hterm hfault
  · rwa [eq_missingOperator_of_resultOf hleft]

/-- Evaluating a row of checked tokens ends in a value or in one of four faults. -/
theorem evaluate_isRefusal {ts : Expression} (hts : ∀ t ∈ ts, t.Checked) {fault : Fault}
    (h : evaluate ts = .error fault) : IsRefusal fault :=
  fault_of_evaluate (known_of_checked hts)
    (fun t ht hterm => evaluateToken_isRefusal (hts t ht) hterm) .missingOperator h

/-- A token fails for what the user is told of: its number, a missing value or arithmetic. -/
theorem isTold_of_evaluateToken {t : Token} (hterm : t.isTerm = true)
    (ht : t.isOperator = true → ∃ op : Operator, t.value = op.symbol) {values : List Double}
    {fault : Fault} (h : evaluateToken values t = .error fault) : fault.kind.isTold = true := by
  unfold evaluateToken at h
  split at h
  · exact Number.isTold_of_read (of_map_error h)
  · next ho =>
    obtain ⟨op, hop⟩ := ht (Token.isOperator_of_isTerm hterm (Bool.eq_false_iff.2 ho))
    split at h
    · simp only [applySymbol, hop, Operator.ofSymbol?_symbol] at h
      exact (perform_isRefusal (of_map_error h)).isTold
    · obtain rfl := Except.error.inj h
      rfl

/-- Whatever its operands are, a row whose operators are known fails only for what the user is told
of. -/
theorem isTold_of_evaluate {ts : Expression} (hts : ts.Known) {fault : Fault}
    (h : evaluate ts = .error fault) : fault.kind.isTold = true :=
  fault_of_evaluate (P := (·.kind.isTold = true)) hts
    (fun t ht hterm => isTold_of_evaluateToken hterm (hts t ht)) rfl h

/-- So any other failure is on account of an operator that is none. -/
theorem exists_unknown_of_evaluate {ts : Expression} {fault : Fault}
    (h : evaluate ts = .error fault) (hfault : fault.kind.isTold = false) :
    ∃ t ∈ ts, t.isOperator = true ∧ Operator.ofSymbol? t.value = none := by
  cases hunknown : unknownOperator? ts with
  | some t =>
    have hsymbol := List.find?_some hunknown
    rw [Bool.and_eq_true, Option.isNone_iff_eq_none] at hsymbol
    exact ⟨t, List.mem_of_find?_eq_some hunknown, hsymbol⟩
  | none =>
    have hqueue : toQueue ts = .ok (reorder ts) := by rw [toQueue, hunknown]
    cases hfault.symm.trans (isTold_of_evaluate (known_of_toQueue hqueue) h)

/-! ## How many values there are -/

/-- An operand puts a value on the stack, and any other token makes one of two. -/
theorem length_evaluateToken {values values' : List Double} {t : Token}
    (h : evaluateToken values t = .ok values') :
    values'.length + [t].countP (!·.isOperand) = values.length + [t].countP Token.isOperand ∧
      values' ≠ [] := by
  unfold evaluateToken at h
  split at h
  · next ho =>
    obtain ⟨x, -, rfl⟩ := exists_of_map_ok h
    exact ⟨by simp [ho], List.cons_ne_nil _ _⟩
  · next ho =>
    split at h
    · obtain ⟨z, -, rfl⟩ := exists_of_map_ok h
      exact ⟨by simp [ho], List.cons_ne_nil _ _⟩
    · cases h

/-- So many values more are on the stack as there are operands more than other tokens. -/
theorem length_foldlM {queue : Expression} {values values' : List Double}
    (h : queue.foldlM evaluateToken values = .ok values') :
    values'.length + queue.countP (!·.isOperand) = values.length + queue.countP Token.isOperand ∧
      (queue ≠ [] → values' ≠ []) := by
  induction queue generalizing values with
  | nil =>
    obtain rfl := Except.ok.inj h
    exact ⟨rfl, fun hne => absurd rfl hne⟩
  | cons t queue ih =>
    rw [List.foldlM_cons] at h
    obtain ⟨values₁, htoken, hrest⟩ := exists_of_bind_ok h
    obtain ⟨hlength, hne⟩ := length_evaluateToken htoken
    obtain ⟨hlength', hne'⟩ := ih hrest
    have hcons (p : Token → Bool) : (t :: queue).countP p = [t].countP p + queue.countP p := by
      rw [← List.countP_append, List.singleton_append]
    refine ⟨by rw [hcons, hcons]; omega, fun _ => ?_⟩
    cases queue with
    | nil =>
      obtain rfl := Except.ok.inj hrest
      exact hne
    | cons t' queue' => exact hne' (List.cons_ne_nil _ _)

/-- The value of a row is what is left on the stack when its order of evaluation is worked off. -/
theorem exists_values_of_evaluate {ts : Expression} {x : Double} (h : evaluate ts = .ok x) :
    ∃ values, (reorder ts).foldlM evaluateToken [] = .ok values ∧ resultOf values = .ok x := by
  obtain ⟨queue, hqueue, hvalue⟩ := exists_of_bind_ok h
  obtain rfl := eq_reorder_of_toQueue hqueue
  exact exists_of_bind_ok hvalue

/-- Nothing or one value is left if there is a result. -/
theorem length_le_one_of_resultOf {values : List Double} {x : Double}
    (h : resultOf values = .ok x) : values.length ≤ 1 := by
  unfold resultOf at h
  split at h
  · exact Nat.zero_le _
  · exact Nat.le_refl _
  · cases h

/-- Reordering loses no operand. -/
theorem countP_isOperand_reorder (ts : Expression) :
    (reorder ts).countP Token.isOperand = ts.countP Token.isOperand := by
  rw [(reorder_perm ts).countP_eq, List.countP_filter]
  refine List.countP_congr fun t _ => ?_
  cases ho : t.isOperand <;> simp [Token.isTerm, ho]

/-- All else that reordering keeps are the operators. -/
theorem countP_not_isOperand_reorder (ts : Expression) :
    (reorder ts).countP (!·.isOperand) = ts.countP Token.isOperator := by
  rw [(reorder_perm ts).countP_eq, List.countP_filter]
  refine List.countP_congr fun t _ => ?_
  cases hop : t.isOperator with
  | true => simp [Token.isTerm, hop, Token.isOperand_of_isOperator hop]
  | false => simp [Token.isTerm, hop]

/-- A row with a value has one operand more than it has operators, unless it has none of either. -/
theorem countP_of_evaluate {ts : Expression} {x : Double} (h : evaluate ts = .ok x)
    (hterm : ∃ t ∈ ts, t.isTerm = true) :
    ts.countP Token.isOperand = ts.countP Token.isOperator + 1 := by
  obtain ⟨t, ht, hterm⟩ := hterm
  have hne : reorder ts ≠ [] :=
    List.ne_nil_of_mem ((reorder_perm ts).mem_iff.2 (List.mem_filter.2 ⟨ht, hterm⟩))
  obtain ⟨values, hfold, hresult⟩ := exists_values_of_evaluate h
  obtain ⟨hlength, hvalues⟩ := length_foldlM hfold
  have hpos := List.length_pos_iff.2 (hvalues hne)
  have hone := length_le_one_of_resultOf hresult
  rw [countP_isOperand_reorder, countP_not_isOperand_reorder, List.length_nil] at hlength
  omega

end Expression

end Keypad
