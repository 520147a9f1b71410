import Keypad.Proofs.Expression.Grammar
import Keypad.Proofs.Machine.Shown
import Keypad.Proofs.Machine.TypedNumber

/-!
# Typing an expression

While an expression is being typed, what has been read of it is in the committed row, but for a
number at the end that still stands in the buffer. `Typed` says so for both cases. Each symbol takes
a machine that has typed a row to one that has typed a longer one, and `calculate` evaluates the
row.

The leaves of a tree are numbered from left to right, which is how their operands get their idents:
`Literal.row` is the row that the tree leaves behind.
-/

namespace Keypad

namespace Expression.Tree

variable {α β : Type}

/-- How many leaves the tree has. -/
def size : Tree α → Nat
  | leaf _ => 1
  | group inside => inside.size
  | node _ left right => left.size + right.size

/-- The tree with its leaves numbered from `n` on, from left to right. -/
def number (n : Nat) : Tree α → Tree (α × Nat)
  | leaf a => leaf (a, n)
  | group inside => group (inside.number n)
  | node op left right => node op (left.number n) (right.number (n + left.size))

/-- Numbering the leaves leaves the tree in the grammar. -/
theorem Derives.number {l : Level} {t : Tree α} (h : Derives l t) (n : Nat) :
    Derives l (t.number n) := by
  induction h generalizing n with
  | leaf a => exact .leaf _
  | group _ ih => exact .group (ih n)
  | product _ ih => exact .product (ih n)
  | multiply hop _ _ ihl ihr => exact .multiply hop (ihl n) (ihr _)
  | sum _ ih => exact .sum (ih n)
  | add hop _ _ ihl ihr => exact .add hop (ihl n) (ihr _)

/-- A change to the leaves of a tree leaves its level. -/
theorem Derives.map {l : Level} {t : Tree α} (h : Derives l t) (f : α → β) :
    Derives l (t.map f) := by
  induction h with
  | leaf a => exact .leaf _
  | group _ ih => exact .group ih
  | product _ ih => exact .product ih
  | multiply hop _ _ ihl ihr => exact .multiply hop ihl ihr
  | sum _ ih => exact .sum ih
  | add hop _ _ ihl ihr => exact .add hop ihl ihr

/-- What holds of every changed leaf holds of all leaves of the changed tree. -/
theorem all_map {p : β → Prop} {f : α → β} (h : ∀ a, p (f a)) (t : Tree α) : (t.map f).All p := by
  induction t with
  | leaf a => exact h a
  | group _ ih => exact ih
  | node _ _ _ ihl ihr => exact ⟨ihl, ihr⟩

end Expression.Tree

namespace Literal

/-- The operand that the number is as it was written. -/
def written (l : Literal) : Token := Token.plain .operand l.text .blank none

/-- The operand that the number becomes when it is typed, under the ident of a number. -/
def operand (l : Literal × Nat) : Token :=
  Token.plain .operand l.1.typedText .blank (some (Machine.operandIdent l.2))

/-- The row of the tree as it is kept, its idents numbered from `n` on. -/
def row (t : Expression.Tree Literal) (n : Nat) : Expression := ((t.number n).map operand).tokens

theorem row_leaf (l : Literal) (n : Nat) : row (.leaf l) n = [operand (l, n)] := rfl

/-- A group leaves marks around the row of what is inside. -/
theorem row_group (e : Expression.Tree Literal) (n : Nat) :
    row (.group e) n = Token.grouping .opening :: (row e n ++ [Token.grouping .closing]) := rfl

/-- A node leaves its operator between the rows of its sides, which are numbered one after the
other. -/
theorem row_node (op : Operator) (left right : Expression.Tree Literal) (n : Nat) :
    row (.node op left right) n =
      row left n ++ Token.operator op :: row right (n + left.size) := rfl

/-- Typing changes the texts of numbers, and not the value of an expression. -/
theorem value_operand (t : Expression.Tree Literal) (n : Nat) :
    ((t.number n).map operand).value = (t.map written).value := by
  induction t generalizing n with
  | leaf l =>
    obtain ⟨x, hwritten, htyped⟩ := l.exists_read
    exact htyped.trans hwritten.symm
  | group _ ih => exact ih n
  | node op left right ihl ihr =>
    simp only [Expression.Tree.number, Expression.Tree.map, Expression.Tree.value, ihl, ihr]

/-- So the row of a tree has the value of the tree as it was written. -/
theorem evaluate_row {t : Expression.Tree Literal} (h : t.Derives .sum) (n : Nat) :
    Expression.evaluate (row t n) = (t.map written).value := by
  have hoperands : ((t.number n).map operand).All (·.isOperand = true) :=
    Expression.Tree.all_map (f := operand) (fun _ => rfl) _
  rw [row, Expression.evaluate_tokens ((h.number n).map operand) hoperands, value_operand]

/-- A tree has no operators but the four. -/
theorem row_known (t : Expression.Tree Literal) (n : Nat) : (row t n).Known := by
  induction t generalizing n with
  | leaf l => exact Expression.known_nil.concat rfl
  | group e ih =>
    rw [row_group, ← List.singleton_append, Expression.known_append]
    exact ⟨Expression.known_nil.concat rfl, (ih n).concat rfl⟩
  | node op left right ihl ihr =>
    rw [row_node, List.append_cons, Expression.known_append]
    exact ⟨(ihl n).concat_operator rfl, ihr _⟩

/-- Every tree leaves something in the row. -/
theorem row_ne_nil (t : Expression.Tree Literal) (n : Nat) : row t n ≠ [] := by
  cases t with
  | leaf l =>
    rw [row_leaf]
    exact List.cons_ne_nil _ _
  | group e =>
    rw [row_group]
    exact List.cons_ne_nil _ _
  | node op left right =>
    rw [row_node]
    exact List.append_ne_nil_of_right_ne_nil _ (List.cons_ne_nil _ _)

end Literal

namespace Machine

open Outcome

/-- Where an outcome leads, its log apart. -/
def Outcome.ending {ε : Type} (o : Outcome ε) : Machine × Option Fault := (o.machine, o.fault)

/-- Where the first part is not refused, the second one goes on. -/
theorem Outcome.ending_andThen {ε : Type} {o : Outcome ε} {m : Machine} (h : o.ending = (m, none))
    (next : Machine → Outcome ε) : (o.andThen next).ending = (next m).ending := by
  obtain ⟨hmachine, hfault⟩ := Prod.mk.inj h
  rw [andThen_of_done hfault, hmachine]
  rfl

/-- The log of the first part does not show in where the two lead. -/
theorem Outcome.ending_andThen_congr {ε : Type} {o o' : Outcome ε} (h : o.ending = o'.ending)
    (next : Machine → Outcome ε) : (o.andThen next).ending = (o'.andThen next).ending := by
  obtain ⟨hmachine, hfault⟩ := Prod.mk.inj h
  cases ho' : o'.fault with
  | some fault =>
    rw [andThen_of_fault (hfault.trans ho'), andThen_of_fault ho']
    exact h
  | none =>
    rw [andThen_of_done (hfault.trans ho'), andThen_of_done ho', hmachine]
    rfl

/-! ## What has been typed -/

/-- This row has been typed, with the numbers below `n` for its idents. Either it is all committed,
and ends in a mark; or its last number is still in the buffer. -/
inductive Typed (ts : Expression) (n : Nat) (m : Machine) : Prop where
  | committed : m.settled = true → m.committed = ts → m.nextIdent = n →
      (∃ last ∈ ts.getLast?, last.isOperator = false) → Typed ts n m
  | pending {x : Double} : m.settled = false → Number.read m.buffer = .ok x →
      m.pushed.committed = ts → m.nextIdent + 1 = n → Typed ts n m

variable {m : Machine} {ts : Expression} {n : Nat}

/-- Whether a row has been typed does not depend on the notice. -/
theorem Typed.quiet (h : m.Typed ts n) : m.quiet.Typed ts n := by
  cases h with
  | committed hs hts hn hlast => exact .committed hs hts hn hlast
  | pending hs hx hts hn => exact .pending hs hx hts hn

/-- What is pending can be committed. -/
theorem Typed.commitTyped (h : m.Typed ts n) :
    ∃ m', m.commitTyped.ending = (m', none) ∧ m'.committed = ts ∧ m'.nextIdent = n ∧
      m'.failed = m.failed ∧ m'.history = m.history := by
  unfold Machine.commitTyped
  cases h with
  | committed hs hts hn _ =>
    rw [if_pos hs]
    exact ⟨m, rfl, hts, hn, rfl, rfl⟩
  | pending hs hx hts hn =>
    rw [if_neg (Bool.eq_false_iff.1 hs), commit_of_read hx]
    exact ⟨m.pushed, rfl, hts, hn, rfl, rfl⟩

/-- An operator goes behind the row that has been typed. -/
theorem Typed.typeOperator (h : m.Typed ts n) (op : Operator) :
    ∃ m', (m.typeOperator op).ending = (m', none) ∧ m'.settled = true ∧
      m'.committed = ts ++ [Token.operator op] ∧ m'.nextIdent = n ∧ m'.failed = m.failed ∧
      m'.history = m.history := by
  unfold Machine.typeOperator
  cases h with
  | committed hs hts hn hlast =>
    obtain ⟨last, hlast, hop⟩ := hlast
    have hne : m.committed ≠ [] := by
      rintro hnil
      rw [← hts, hnil] at hlast
      cases hlast
    -- the row ends in a mark, so there is no operator to replace
    have hlast? : m.lastOperator? = none := by
      rw [lastOperator?, hts, hlast, Option.filter_some, hop]
      rfl
    rw [if_neg (by simpa [hs] using hne), hlast?]
    exact ⟨m.appendOperator op, rfl, rfl, by rw [appendOperator, hts], hn, rfl, rfl⟩
  | pending hs hx hts hn =>
    rw [if_pos (by simp [hs]), commit_of_read hx]
    exact ⟨m.pushed.appendOperator op, rfl, rfl, by rw [appendOperator, hts], hn, rfl, rfl⟩

/-- A closing mark goes behind the row that has been typed, and settles it. -/
theorem Typed.typeClosing (h : m.Typed ts n) :
    ∃ m', (m.typeMark .closing).ending = (m', none) ∧
      m'.Typed (ts ++ [Token.grouping .closing]) n ∧ m'.failed = m.failed ∧
      m'.history = m.history := by
  obtain ⟨m₁, hend, hts, hn, hfailed, hhistory⟩ := h.commitTyped
  refine ⟨{ m₁.appendMark .closing with settled := true }, ?_, ?_, hfailed, hhistory⟩
  · exact ending_andThen hend _
  · refine .committed rfl (by rw [appendMark, hts]) hn ⟨Token.grouping .closing, ?_, rfl⟩
    rw [List.getLast?_concat]
    rfl

/-- An opening mark where a number is awaited multiplies nothing. -/
theorem AwaitsNumber.typeOpening (h : m.AwaitsNumber) :
    m.typeMark .opening = done (m.appendMark .opening) := by
  have hfactor : m.hasFactor = false := by
    unfold hasFactor
    -- a settled number is no factor, and neither is the zero of the start
    rcases h.anew with hs | ⟨hbuffer, -, -⟩
    · rw [hs]
      rfl
    · rw [hbuffer]
      simp [Buffer.start]
  rw [typeMark, hfactor]
  exact done_andThen _ _

/-- Behind an opening mark a number is awaited as before. -/
theorem AwaitsNumber.appendOpening (h : m.AwaitsNumber) :
    (m.appendMark .opening).AwaitsNumber := ⟨h.failed, h.anew⟩

/-- The number in the buffer while it is being typed. -/
theorem typed_entering (m : Machine) (l : Literal) :
    (m.entering l.typedText).Typed (m.committed ++ [Literal.operand (l, m.nextIdent)])
      (m.nextIdent + 1) := by
  obtain ⟨x, -, hx⟩ := l.exists_read
  exact .pending rfl hx rfl rfl

/-- What is evaluated is the row that has been typed. -/
theorem Typed.calculate (h : m.Typed ts n) (hm : m.failed = false) :
    ∃ m' : Machine, m.calculate.ending = m'.evaluateCommitted.ending ∧ m'.committed = ts ∧
      m'.failed = false ∧ m'.history = m.history := by
  cases h with
  | committed hs hts _ _ => exact ⟨m.quiet, by rw [calculate_of_settled hm hs], hts, hm, rfl⟩
  | pending hs hx hts _ =>
    refine ⟨m.quiet.pushed, ?_, hts, hm, rfl⟩
    rw [calculate_of_read hm hs hx]
    exact ending_andThen rfl _

/-- So a typed row of known operators is never refused. -/
theorem Typed.calculate_fault (h : m.Typed ts n) (hm : m.failed = false) (hknown : ts.Known) :
    m.calculate.fault = none := by
  obtain ⟨m', hend, rfl, -, -⟩ := h.calculate hm
  exact (congrArg Prod.snd hend).trans (evaluateCommitted_fault hknown)

/-- The value of the typed row is shown, and kept with the row. -/
theorem Typed.calculate_of_ok (h : m.Typed ts n) (hm : m.failed = false) (hne : ts ≠ [])
    {x : Double} (hx : Expression.evaluate ts = .ok x) :
    m.calculate.machine.failed = false ∧ m.calculate.machine.buffer = x.resultText ∧
      m.calculate.machine.committed = [] ∧
      m.calculate.machine.history = m.history.push ⟨ts, x.resultText⟩ := by
  obtain ⟨m', hend, rfl, hfailed, hhistory⟩ := h.calculate hm
  have hmachine : m.calculate.machine = m'.evaluateCommitted.machine := congrArg Prod.fst hend
  rw [hmachine, evaluateCommitted_of_ok hne hx, ← hhistory]
  exact ⟨hfailed, rfl, rfl, rfl⟩

/-- If it has none, the machine goes into the error state. -/
theorem Typed.calculate_of_error (h : m.Typed ts n) (hm : m.failed = false) (hne : ts ≠ [])
    (hknown : ts.Known) {fault : Fault} (hx : Expression.evaluate ts = .error fault) :
    m.calculate.machine.InError ∧ m.calculate.machine.history = m.history := by
  obtain ⟨m', hend, rfl, -, hhistory⟩ := h.calculate hm
  have hmachine : m.calculate.machine = m'.evaluateCommitted.machine := congrArg Prod.fst hend
  rw [hmachine, evaluateCommitted_of_error hne hx (Expression.isTold_of_evaluate hknown hx)]
  exact ⟨inError_enterError m', hhistory⟩

/-! ## Before and after -/

/-- The machine has just been cleared, or has calculated without being refused or going into the
error state. -/
inductive JustFinished : Machine → Prop where
  | cleared (m : Machine) : JustFinished m.clear.machine
  | calculated {m : Machine} : m.calculate.fault = none → m.calculate.machine.failed = false →
      JustFinished m.calculate.machine

/-- An evaluation that neither is refused nor fails leaves a settled number and no row. -/
theorem evaluateCommitted_finished (h : m.settled = true ∨ m.committed ≠ [])
    (hfault : m.evaluateCommitted.fault = none)
    (hfailed : m.evaluateCommitted.machine.failed = false) :
    m.evaluateCommitted.machine.settled = true ∧ m.evaluateCommitted.machine.committed = [] := by
  by_cases hnil : m.committed = []
  · rw [evaluateCommitted_of_nil hnil]
    exact ⟨h.resolve_right fun hne => hne hnil, hnil⟩
  · cases hx : Expression.evaluate m.committed with
    | error fault =>
      cases htold : fault.kind.isTold with
      | true =>
        rw [evaluateCommitted_of_error hnil hx htold] at hfailed
        cases hfailed
      | false =>
        rw [evaluateCommitted_of_untold hnil hx htold] at hfault
        cases hfault
    | ok x =>
      rw [evaluateCommitted_of_ok hnil hx]
      exact ⟨rfl, rfl⟩

/-- Nothing is committed then, and a number that is typed starts anew. -/
theorem JustFinished.awaitsNumber (h : m.JustFinished) : m.AwaitsNumber ∧ m.committed = [] := by
  cases h with
  | cleared m => exact ⟨⟨rfl, .inr ⟨rfl, rfl, rfl⟩⟩, rfl⟩
  | @calculated m hfault hfailed =>
    -- a calculation that did not fail settled the number and took the row away
    suffices hfinished :
        m.calculate.machine.settled = true ∧ m.calculate.machine.committed = [] from
      ⟨⟨hfailed, .inl hfinished.1⟩, hfinished.2⟩
    cases hm : m.failed with
    | true =>
      rw [Machine.calculate, guarded_of_failed hm] at hfailed
      cases hm.symm.trans hfailed
    | false =>
      cases hs : m.settled with
      | true =>
        rw [calculate_of_settled hm hs] at hfault hfailed ⊢
        exact evaluateCommitted_finished (.inl hs) hfault hfailed
      | false =>
        cases hread : Number.read m.buffer with
        | error fault =>
          rw [calculate_of_error hm hs hread] at hfailed
          cases hfailed
        | ok x =>
          rw [calculate_of_read hm hs hread] at hfault hfailed ⊢
          exact evaluateCommitted_finished (m := m.quiet.pushed)
            (.inr (List.append_ne_nil_of_right_ne_nil _ (List.cons_ne_nil _ _))) hfault hfailed

end Machine

end Keypad
