import Keypad.Proofs.Expression.Grammar
import Keypad.Proofs.Expression.InfixForm

/-!
# Queues that are postfix

`assemble` works a queue off on a stack of trees instead of values. What it puts together are the
trees that the queue lists, and it stops where an operator finds fewer than two. So a queue is a row
of listed trees with something behind them that breaks it off (`exists_isCut`), in one way only
(`IsCut.assemble_eq`), and a tree is told by its postorder (`postorder_injective`). Working the
queue off on values computes the trees one after another, and what is missing behind them shows only
if they all have a value.

* `assemble_postorder`                — a listed tree is put together on top of the stack.
* `foldlM_postorders`                 — working listed trees off computes them from left to right.
* `IsCut.evaluateQueue_of_breaks`     — a queue that breaks off is refused.
* `evaluateQueue_accepts_postorders`  — just the postorders of trees have values.
-/

namespace Keypad.Expression

namespace Tree

/-- Whether the tree is one of operators over operands, without groups. -/
def IsBinary : Tree Token → Prop
  | leaf t => t.isOperand = true
  | group _ => False
  | node _ left right => left.IsBinary ∧ right.IsBinary

/-- The leaves of such a tree are operands. -/
theorem IsBinary.all {t : Tree Token} (h : t.IsBinary) : t.All (·.isOperand = true) := by
  induction t with
  | leaf a => exact h
  | group e _ => exact h.elim
  | node op l r ihl ihr => exact ⟨ihl h.1, ihr h.2⟩

/-- What computing the tree ends in: the left side comes first, then the right side, and then the
operation, which first looks for a zero divisor and then at the result. -/
inductive Yields : Tree Token → Except Fault Double → Prop where
  | leaf (a : Token) : Yields (leaf a) (Number.read a.value)
  | group {inside : Tree Token} {result : Except Fault Double} (h : Yields inside result) :
      Yields (group inside) result
  | left {op : Operator} {l r : Tree Token} {fault : Fault} (hl : Yields l (.error fault)) :
      Yields (node op l r) (.error fault)
  | right {op : Operator} {l r : Tree Token} {x : Double} {fault : Fault} (hl : Yields l (.ok x))
      (hr : Yields r (.error fault)) : Yields (node op l r) (.error fault)
  | divisionByZero {l r : Tree Token} {x y : Double} (hl : Yields l (.ok x))
      (hr : Yields r (.ok y)) (hzero : y.isZero = true) :
      Yields (node .divide l r) (.error .divisionByZero)
  | outOfRange {op : Operator} {l r : Tree Token} {x y : Double} (hl : Yields l (.ok x))
      (hr : Yields r (.ok y)) (hzero : ¬(op = .divide ∧ y.isZero = true))
      (hnone : ∀ z, op.apply x y ≠ .finite z) : Yields (node op l r) (.error .outOfRange)
  | value {op : Operator} {l r : Tree Token} {x y z : Double} (hl : Yields l (.ok x))
      (hr : Yields r (.ok y)) (hzero : ¬(op = .divide ∧ y.isZero = true))
      (hz : op.apply x y = .finite z) : Yields (node op l r) (.ok z)

/-- Computing a tree ends in the value of the tree. -/
theorem yields_value (t : Tree Token) : t.Yields t.value := by
  induction t with
  | leaf a => exact .leaf a
  | group e ih => exact .group ih
  | node op l r ihl ihr =>
    rw [Tree.value]
    cases hl : l.value with
    | error fault => exact .left (hl ▸ ihl)
    | ok x =>
      cases hr : r.value with
      | error fault => exact .right (hl ▸ ihl) (hr ▸ ihr)
      | ok y =>
        show Yields _ (op.perform x y)
        -- both sides have values, so the operator is applied: to a zero on its right, or within
        -- range or not
        unfold Operator.perform
        split
        · next hzero =>
          obtain ⟨rfl, hzero⟩ := hzero
          exact .divisionByZero (hl ▸ ihl) (hr ▸ ihr) hzero
        · next hzero =>
          cases hz : op.apply x y with
          | finite z => exact .value (hl ▸ ihl) (hr ▸ ihr) hzero hz
          | infinite negative =>
            exact .outOfRange (hl ▸ ihl) (hr ▸ ihr) hzero fun z => by simp [hz]
          | undefined => exact .outOfRange (hl ▸ ihl) (hr ▸ ihr) hzero fun z => by simp [hz]

/-- If the operands can be read, only arithmetic can keep a tree from having a value. -/
theorem IsBinary.isArithmetic_of_value {t : Tree Token} (ht : t.IsBinary)
    (hchecked : ∀ a ∈ t.postorder, a.Checked) {fault : Fault} (h : t.value = .error fault) :
    fault.IsArithmetic := by
  induction t with
  | leaf a =>
    obtain ⟨x, hx⟩ := (hchecked a List.mem_cons_self).exists_read ht
    cases hx.symm.trans h
  | group e _ => exact ht.elim
  | node op l r ihl ihr =>
    rw [postorder, List.forall_mem_append, List.forall_mem_append] at hchecked
    rcases of_bind_error h with hl | ⟨x, -, hrest⟩
    · exact ihl ht.1 hchecked.1.1 hl
    · rcases of_bind_error hrest with hr | ⟨y, -, hop⟩
      · exact ihr ht.2 hchecked.1.2 hr
      · exact Operator.isArithmetic_of_perform hop

end Tree

/-- The trees listed one after another, each in its postorder. -/
def postorders (trees : List (Tree Token)) : Expression := trees.flatMap Tree.postorder

theorem postorders_concat (trees : List (Tree Token)) (t : Tree Token) :
    postorders (trees ++ [t]) = postorders trees ++ t.postorder := by
  rw [postorders, List.flatMap_append, List.flatMap_singleton, postorders]

/-- How a queue goes on behind the trees that it lists if it is neither empty nor a single tree, and
what is missing there. -/
inductive Breaks : List (Tree Token) → Expression → Fault → Prop where
  /-- An operator finds fewer than two trees. -/
  | operand {trees : List (Tree Token)} (h : trees.length < 2) (op : Operator) (back : Expression) :
      Breaks trees (Token.operator op :: back) (.missingOperand op.symbol)
  /-- The queue ends with several trees. -/
  | operator {trees : List (Tree Token)} (h : 1 < trees.length) : Breaks trees [] .missingOperator

/-- The queue lists the trees and goes on with the rest, and that is as far as it lists trees. -/
structure IsCut (queue : Expression) (trees : List (Tree Token)) (rest : Expression) : Prop where
  queue_eq : queue = postorders trees ++ rest
  binary : ∀ t ∈ trees, t.IsBinary
  ends : rest = [] ∨ ∃ missing, Breaks trees rest missing

/-- Whatever is missing, the queue is malformed. -/
theorem Breaks.kind_eq {trees : List (Tree Token)} {rest : Expression} {missing : Fault}
    (h : Breaks trees rest missing) : missing.kind = .malformed := by
  cases h <;> rfl

/-! ## Putting trees together -/

/-- Works a token off on a stack of trees, latest first, if an operator finds two. -/
def assembleToken (trees : List (Tree Token)) (t : Token) : Option (List (Tree Token)) :=
  if t.isOperand then some (.leaf t :: trees)
  else
    match Operator.ofSymbol? t.value, trees with
    | some op, right :: left :: rest => some (.node op left right :: rest)
    | _, _ => none

/-- Works the queue off on a stack of trees as far as it goes: the trees there are in the end, and
what is left of the queue. -/
def assemble (trees : List (Tree Token)) : Expression → List (Tree Token) × Expression
  | [] => (trees, [])
  | t :: queue =>
    match assembleToken trees t with
    | some trees' => assemble trees' queue
    | none => (trees, t :: queue)

/-- An operand is a tree of its own. -/
theorem assemble_operand {t : Token} (h : t.isOperand = true) (trees : List (Tree Token))
    (queue : Expression) : assemble trees (t :: queue) = assemble (.leaf t :: trees) queue := by
  have htoken : assembleToken trees t = some (.leaf t :: trees) := if_pos h
  rw [assemble, htoken]

/-- An operator makes one tree of the two on top, if there are two. -/
theorem assembleToken_operator (op : Operator) (trees : List (Tree Token)) :
    assembleToken trees (Token.operator op) =
      match trees with
      | right :: left :: rest => some (.node op left right :: rest)
      | _ => none := by
  unfold assembleToken
  rw [Token.isOperand_operator, if_neg Bool.false_ne_true]
  simp only [Token.ofSymbol?_operator]
  rcases trees with _ | ⟨t, _ | ⟨t', trees⟩⟩ <;> rfl

/-- Behind that, the queue is worked off on the joined tree. -/
theorem assemble_operator (op : Operator) (left right : Tree Token) (trees : List (Tree Token))
    (queue : Expression) :
    assemble (right :: left :: trees) (Token.operator op :: queue) =
      assemble (.node op left right :: trees) queue := by
  rw [assemble, assembleToken_operator]

/-- Where there are not two, nothing more is put together. -/
theorem assemble_of_short {trees : List (Tree Token)} (h : trees.length < 2) (op : Operator)
    (queue : Expression) :
    assemble trees (Token.operator op :: queue) = (trees, Token.operator op :: queue) := by
  rw [assemble, assembleToken_operator]
  rcases trees with _ | ⟨t, _ | ⟨t', trees⟩⟩
  · rfl
  · rfl
  · simp only [List.length_cons] at h
    omega

/-- A listed tree is put together on top of the stack, whatever comes behind it. -/
theorem assemble_postorder {t : Tree Token} (h : t.IsBinary) (stack : List (Tree Token))
    (rest : Expression) : assemble stack (t.postorder ++ rest) = assemble (t :: stack) rest := by
  induction t generalizing stack rest with
  | leaf a => exact assemble_operand h stack rest
  | group e _ => exact h.elim
  | node op l r ihl ihr =>
    rw [Tree.postorder, List.append_assoc, List.append_assoc, ihl h.1, ihr h.2]
    exact assemble_operator op l r stack rest

/-- Listed trees are put together again, one on top of the other. -/
theorem assemble_postorders {trees : List (Tree Token)} (h : ∀ t ∈ trees, t.IsBinary)
    (stack : List (Tree Token)) (rest : Expression) :
    assemble stack (postorders trees ++ rest) = assemble (trees.reverse ++ stack) rest := by
  induction trees generalizing stack with
  | nil => rfl
  | cons t trees ih =>
    obtain ⟨ht, htrees⟩ := List.forall_mem_cons.1 h
    rw [postorders, List.flatMap_cons, List.append_assoc, assemble_postorder ht, List.reverse_cons,
      List.append_assoc]
    exact ih htrees (t :: stack)

/-- There is one cut at most. -/
theorem IsCut.assemble_eq {queue rest : Expression} {trees : List (Tree Token)}
    (h : IsCut queue trees rest) : assemble [] queue = (trees.reverse, rest) := by
  rw [h.queue_eq, assemble_postorders h.binary, List.append_nil]
  rcases h.ends with rfl | ⟨missing, hbreaks⟩
  · rfl
  · cases hbreaks with
    | operand hshort op back =>
      exact assemble_of_short (trees.length_reverse.trans_lt hshort) op back
    | operator _ => rfl

/-- A list of more than one begins with two. -/
theorem exists_two_of_long {α : Type} {as : List α} (h : 1 < as.length) :
    ∃ a b rest, as = a :: b :: rest := by
  rcases as with _ | ⟨a, _ | ⟨b, rest⟩⟩
  · exact absurd h (Nat.not_lt_zero 1)
  · exact absurd h (Nat.lt_irrefl 1)
  · exact ⟨a, b, rest, rfl⟩

/-- A queue of operands and operators is cut where the trees that are put together from it, on top
of those that are there already, come to an end. -/
theorem isCut_assemble {queue : Expression} (hqueue : ∀ t ∈ queue, t.Checked ∧ t.isTerm = true)
    {stack : List (Tree Token)} (hstack : ∀ t ∈ stack, t.IsBinary) :
    IsCut (postorders stack.reverse ++ queue) (assemble stack queue).1.reverse
      (assemble stack queue).2 := by
  induction queue generalizing stack with
  | nil => exact ⟨rfl, fun t ht => hstack t (List.mem_reverse.1 ht), .inl rfl⟩
  | cons t queue ih =>
    obtain ⟨⟨hchecked, hterm⟩, hrest⟩ := List.forall_mem_cons.1 hqueue
    cases ho : t.isOperand with
    | true =>
      have hleaf : (Tree.leaf t).IsBinary := ho
      have hcut := ih hrest (List.forall_mem_cons.2 ⟨hleaf, hstack⟩)
      rw [assemble_operand ho]
      rwa [List.reverse_cons, postorders_concat, List.append_assoc] at hcut
    | false =>
      obtain ⟨op, rfl⟩ := hchecked.exists_operator (Token.isOperator_of_isTerm hterm ho)
      by_cases hshort : stack.length < 2
      · rw [assemble_of_short hshort]
        exact ⟨rfl, fun t ht => hstack t (List.mem_reverse.1 ht),
          .inr ⟨_, .operand (stack.length_reverse.trans_lt hshort) op queue⟩⟩
      · -- the two trees on top are listed side by side, so their operator joins them
        obtain ⟨right, left, stack, rfl⟩ := exists_two_of_long (Nat.not_lt.1 hshort)
        obtain ⟨hright, hstack⟩ := List.forall_mem_cons.1 hstack
        obtain ⟨hleft, hstack⟩ := List.forall_mem_cons.1 hstack
        have hnode : (Tree.node op left right).IsBinary := ⟨hleft, hright⟩
        have hcut := ih hrest (List.forall_mem_cons.2 ⟨hnode, hstack⟩)
        rw [List.reverse_cons, postorders_concat, Tree.postorder] at hcut
        rw [assemble_operator, List.reverse_cons, List.reverse_cons, postorders_concat,
          postorders_concat]
        simpa only [List.append_assoc, List.singleton_append] using hcut

/-- So every queue of operands and operators is cut somewhere. -/
theorem exists_isCut {queue : Expression} (hqueue : ∀ t ∈ queue, t.Checked ∧ t.isTerm = true) :
    ∃ trees rest, IsCut queue trees rest :=
  ⟨_, _, isCut_assemble hqueue fun _ ht => absurd ht List.not_mem_nil⟩

/-- The postorder of a tree lists that tree. -/
theorem isCut_postorder {t : Tree Token} (h : t.IsBinary) : IsCut t.postorder [t] [] where
  queue_eq := by rw [postorders, List.flatMap_singleton, List.append_nil]
  binary := List.forall_mem_singleton.2 h
  ends := .inl rfl

/-- No two trees have one postorder. -/
theorem postorder_injective {t t' : Tree Token} (ht : t.IsBinary) (ht' : t'.IsBinary)
    (h : t.postorder = t'.postorder) : t = t' := by
  have hsame := (isCut_postorder ht).assemble_eq.symm.trans (h ▸ (isCut_postorder ht').assemble_eq)
  exact List.singleton_inj.1 (congrArg Prod.fst hsame)

/-- A queue that is neither empty nor the postorder of a tree breaks off. -/
theorem IsCut.exists_breaks {queue rest : Expression} {trees : List (Tree Token)}
    (h : IsCut queue trees rest) (hne : queue ≠ [])
    (htree : ¬∃ t : Tree Token, t.IsBinary ∧ t.postorder = queue) :
    ∃ missing, Breaks trees rest missing := by
  rcases h.ends with rfl | hbreaks
  · -- the queue ends with its trees, so there must be several of them
    have hqueue := h.queue_eq
    rw [List.append_nil] at hqueue
    match trees, h.binary, hqueue with
    | [], _, hqueue => exact absurd hqueue hne
    | [t], hbinary, hqueue =>
      rw [postorders, List.flatMap_singleton] at hqueue
      exact absurd ⟨t, hbinary t List.mem_cons_self, hqueue.symm⟩ htree
    | _ :: _ :: _, _, _ => exact ⟨_, .operator (by simp)⟩
  · exact hbreaks

/-! ## Computing the trees -/

/-- Working listed trees off computes them from left to right, whatever comes behind them. -/
theorem foldlM_postorders {trees : List (Tree Token)} (h : ∀ t ∈ trees, t.IsBinary)
    (values : List Double) (rest : Expression) :
    (postorders trees ++ rest).foldlM evaluateToken values =
      trees.mapM Tree.value >>= fun xs => rest.foldlM evaluateToken (xs.reverse ++ values) := by
  induction trees generalizing values with
  | nil => rfl
  | cons t trees ih =>
    obtain ⟨ht, htrees⟩ := List.forall_mem_cons.1 h
    rw [postorders, List.flatMap_cons, List.append_assoc, foldlM_postorder ht.all, List.mapM_cons,
      bind_assoc]
    refine bind_congr fun x => ?_
    rw [bind_assoc]
    refine (ih htrees (x :: values)).trans (bind_congr fun xs => ?_)
    rw [pure_bind, List.reverse_cons, List.append_assoc, List.singleton_append]

/-- If all results are there, there is one for each. -/
theorem length_of_mapM_ok {α β : Type} {f : α → Except Fault β} {as : List α} {bs : List β}
    (h : as.mapM f = .ok bs) : bs.length = as.length := by
  induction as generalizing bs with
  | nil =>
    obtain rfl := Except.ok.inj h
    rfl
  | cons a as ih =>
    rw [List.mapM_cons] at h
    obtain ⟨b, -, h⟩ := exists_of_bind_ok h
    obtain ⟨bs, hbs, h⟩ := exists_of_bind_ok h
    obtain rfl := Except.ok.inj h
    rw [List.length_cons, ih hbs, List.length_cons]

/-- If not, one of them is a fault. -/
theorem exists_of_mapM_error {α β : Type} {f : α → Except Fault β} {as : List α} {fault : Fault}
    (h : as.mapM f = .error fault) : ∃ a ∈ as, f a = .error fault := by
  induction as with
  | nil => cases h
  | cons a as ih =>
    rw [List.mapM_cons] at h
    rcases of_bind_error h with ha | ⟨b, -, h⟩
    · exact ⟨a, List.mem_cons_self, ha⟩
    · rcases of_bind_error h with has | ⟨bs, -, h⟩
      · obtain ⟨a', ha', hfault⟩ := ih has
        exact ⟨a', List.mem_cons_of_mem _ ha', hfault⟩
      · cases h

/-- An operator that finds fewer than two values lacks an operand. -/
theorem evaluateToken_of_short {values : List Double} (h : values.length < 2) (op : Operator) :
    evaluateToken values (Token.operator op) = .error (.missingOperand op.symbol) := by
  unfold evaluateToken
  rw [Token.isOperand_operator, if_neg Bool.false_ne_true]
  rcases values with _ | ⟨x, _ | ⟨y, values⟩⟩
  · rfl
  · rfl
  · simp only [List.length_cons] at h
    omega

/-- Several values in the end lack an operator. -/
theorem resultOf_of_long {values : List Double} (h : 1 < values.length) :
    resultOf values = .error .missingOperator := by
  obtain ⟨x, y, rest, rfl⟩ := exists_two_of_long h
  rfl

/-- If all the trees of a queue that breaks off have values, what is missing behind them is found,
and if not, the first of them that has none is. -/
theorem IsCut.evaluateQueue_of_breaks {queue rest : Expression} {trees : List (Tree Token)}
    {missing : Fault} (h : IsCut queue trees rest) (hbreaks : Breaks trees rest missing) :
    evaluateQueue queue = trees.mapM Tree.value >>= fun _ => .error missing := by
  rw [h.queue_eq, evaluateQueue, foldlM_postorders h.binary, bind_assoc]
  cases hvalues : trees.mapM Tree.value with
  | error fault => rfl
  | ok xs =>
    have hlength : (xs.reverse ++ []).length = trees.length := by
      rw [List.append_nil, List.length_reverse, length_of_mapM_ok hvalues]
    cases hbreaks with
    | operand hshort op back =>
      show (Token.operator op :: back).foldlM evaluateToken _ >>= resultOf = _
      rw [List.foldlM_cons, evaluateToken_of_short (hlength.trans_lt hshort)]
      rfl
    | operator hlong =>
      exact resultOf_of_long (hlength ▸ hlong)

/-- Only arithmetic can keep the trees of a checked queue from having values. -/
theorem IsCut.isArithmetic_of_values {queue rest : Expression} {trees : List (Tree Token)}
    (h : IsCut queue trees rest) (hqueue : ∀ t ∈ queue, t.Checked) {fault : Fault}
    (hfault : trees.mapM Tree.value = .error fault) : fault.IsArithmetic := by
  obtain ⟨t, ht, hvalue⟩ := exists_of_mapM_error hfault
  refine (h.binary t ht).isArithmetic_of_value (fun a ha => hqueue a ?_) hvalue
  rw [h.queue_eq]
  exact List.mem_append_left _ (List.mem_flatMap.2 ⟨t, ht, ha⟩)

/-- The queues that have a value are the empty one, whose value is zero, and the postorders of
trees. A postorder is that of one tree only, and its value, or the fault it ends in, is that of the
tree. Any other queue breaks off behind the trees that it lists, and is refused for what is missing
there; but if a tree before that has no value, it is refused for the fault of arithmetic that the
first such tree ends in. -/
theorem evaluateQueue_accepts_postorders {queue : Expression}
    (hqueue : ∀ t ∈ queue, t.Checked ∧ t.isTerm = true) :
    (queue = [] → evaluateQueue queue = .ok (.zero false)) ∧
      (∀ t : Tree Token, t.IsBinary → t.postorder = queue →
        t.Yields (evaluateQueue queue) ∧ evaluateQueue queue = t.value ∧
          ∀ t' : Tree Token, t'.IsBinary → t'.postorder = queue → t' = t) ∧
      (queue ≠ [] → (¬∃ t : Tree Token, t.IsBinary ∧ t.postorder = queue) →
        ∃ trees rest missing, IsCut queue trees rest ∧ Breaks trees rest missing ∧
          missing.kind = .malformed ∧
          ((∃ xs, trees.mapM Tree.value = .ok xs) ∧ evaluateQueue queue = .error missing ∨
            ∃ fault, trees.mapM Tree.value = .error fault ∧ fault.IsArithmetic ∧
              evaluateQueue queue = .error fault)) := by
  refine ⟨fun hnil => ?_, fun t ht hpost => ?_, fun hne htree => ?_⟩
  · rw [hnil]
    rfl
  · have hvalue : evaluateQueue queue = t.value := hpost ▸ evaluateQueue_postorder ht.all
    refine ⟨hvalue ▸ t.yields_value, hvalue, fun t' ht' hpost' => ?_⟩
    exact postorder_injective ht' ht (hpost'.trans hpost.symm)
  · -- no tree is the whole queue, so it is cut where something is missing
    obtain ⟨trees, rest, hcut⟩ := exists_isCut hqueue
    obtain ⟨missing, hbreaks⟩ := hcut.exists_breaks hne htree
    refine ⟨trees, rest, missing, hcut, hbreaks, hbreaks.kind_eq, ?_⟩
    rw [hcut.evaluateQueue_of_breaks hbreaks]
    cases hvalues : trees.mapM Tree.value with
    | ok xs => exact .inl ⟨⟨xs, rfl⟩, rfl⟩
    | error fault =>
      have hchecked : ∀ t ∈ queue, t.Checked := fun t ht => (hqueue t ht).1
      exact .inr ⟨fault, rfl, hcut.isArithmetic_of_values hchecked hvalues, rfl⟩

/-- `8 - 2`. -/
def difference : Tree Token := .node .subtract (.leaf (number "8")) (.leaf (number "2"))

/-- `1 0 ÷ +`: the sum lacks an operand, but the quotient before it has no value. -/
def halted : Expression :=
  [number "1", number "0", Token.operator .divide, Token.operator .add]

/-- The difference is computed, and the other queue is refused for its quotient. -/
theorem evaluateQueue_accepts_postorders_of_halted :
    (∀ t ∈ difference.postorder ++ halted, t.Checked ∧ t.isTerm = true) ∧
      (difference.IsBinary ∧ evaluateQueue difference.postorder = difference.value) ∧
      halted ≠ [] ∧ (¬∃ t : Tree Token, t.IsBinary ∧ t.postorder = halted) ∧
        ∃ trees : List (Tree Token), trees.mapM Tree.value = .error .divisionByZero ∧
          evaluateQueue halted = .error .divisionByZero := by
  have hnumber (text : String) (h : Token.operand text .blank none = .ok (number text)) :
      (number text).Checked ∧ (number text).isTerm = true := ⟨.operand h, rfl⟩
  have hall : ∀ t ∈ difference.postorder ++ halted, t.Checked ∧ t.isTerm = true := by
    simp only [difference, Tree.postorder, halted, List.cons_append, List.nil_append,
      List.forall_mem_cons]
    exact ⟨hnumber "8" (by decide +kernel), hnumber "2" (by decide +kernel), ⟨.operator _, rfl⟩,
      hnumber "1" (by decide +kernel), hnumber "0" (by decide +kernel), ⟨.operator _, rfl⟩,
      ⟨.operator _, rfl⟩, fun t ht => absurd ht List.not_mem_nil⟩
  have hbinary : difference.IsBinary := ⟨rfl, rfl⟩
  have hne : halted ≠ [] := List.cons_ne_nil _ _
  have htree : ¬∃ t : Tree Token, t.IsBinary ∧ t.postorder = halted := by
    rintro ⟨t, ht, hpost⟩
    have hrest : (assemble [] halted).2 ≠ [] := by decide +kernel
    rw [← hpost, (isCut_postorder ht).assemble_eq] at hrest
    exact hrest rfl
  have hresult : evaluateQueue halted = .error .divisionByZero := by decide +kernel
  have hlisted := evaluateQueue_accepts_postorders fun t ht => hall t (List.mem_append_left _ ht)
  have hhalted := evaluateQueue_accepts_postorders fun t ht => hall t (List.mem_append_right _ ht)
  refine ⟨hall, ⟨hbinary, (hlisted.2.1 difference hbinary rfl).2.1⟩, hne, htree, ?_⟩
  obtain ⟨trees, rest, missing, -, -, hkind, ⟨-, hmissing⟩ | ⟨fault, hfault, -, heq⟩⟩ :=
    hhalted.2.2 hne htree
  · rw [hresult] at hmissing
    obtain rfl := Except.error.inj hmissing
    cases hkind
  · rw [hresult] at heq
    obtain rfl := Except.error.inj heq
    exact ⟨trees, hfault, hresult⟩

end Keypad.Expression
