import Keypad.Proofs.Expression.Conservation
import Keypad.Proofs.Machine.Loading
import Mathlib.Data.List.Chain

/-!
# The shape of the committed row

An action changes the committed row by a few of the moves listed in `RowMove`: an operand is never
committed but together with the operator or closing mark behind it, and an operator is put only
where there is none. So no two operators come to stand side by side (`WellShaped`); and as long as
no past calculation is loaded, which may end with an operand, every operand is followed by an
operator or a closing mark (`Followed`).

* `perform_rowMoves` — an action changes the row by row moves.
* `run_rowsShaped`   — the rows of every machine that a run leads to.
-/

namespace Keypad

/-- A closing mark begins no value. -/
theorem Token.not_starts_of_isClosing {t : Token} (h : t.isClosing = true) :
    t.isOperand = false ∧ t.isOpening = false := by
  rw [isClosing, Bool.and_eq_true, beq_iff_eq, beq_iff_eq] at h
  rw [isOperand, isOpening, h.1, h.2]
  exact ⟨rfl, by decide⟩

namespace Expression

/-- No two operators stand side by side, every operator is one of the four, and every operand can be
read. -/
structure WellShaped (ts : Expression) : Prop where
  apart : ts.IsChain fun l r => ¬(l.isOperator = true ∧ r.isOperator = true)
  operators : ∀ t ∈ ts, t.isOperator = true → ∃ op : Operator, t.value = op.symbol
  operands : ∀ t ∈ ts, t.isOperand = true → ∃ x, Number.read t.value = .ok x

/-- Straight behind every operand stands an operator or a closing mark. -/
structure Followed (ts : Expression) : Prop where
  next : ts.IsChain fun l r => l.isOperand = true → r.isOperator = true ∨ r.isClosing = true
  last : ∀ t ∈ ts.getLast?, t.isOperand = false

/-- One change that an action makes to the committed row. Rows of which `q` holds can be loaded. -/
inductive RowMove (q : Expression → Prop) : Expression → Expression → Prop where
  /-- An operand is committed with what ends it. -/
  | operand {ts : Expression} {t u : Token} (ht : t.isOperand = true) {x : Double}
      (hread : Number.read t.value = .ok x)
      (hu : (∃ op, u = Token.operator op) ∨ u = Token.grouping .closing) :
      RowMove q ts (ts ++ [t, u])
  | operator {ts : Expression} (hlast : ∀ t ∈ ts.getLast?, t.isOperator = false) (op : Operator) :
      RowMove q ts (ts ++ [Token.operator op])
  | replace {front : Expression} {last : Token} (hlast : last.isOperator = true) (op : Operator) :
      RowMove q (front ++ [last]) (front ++ [{ last with value := op.symbol }])
  | mark (ts : Expression) (mark : Mark) : RowMove q ts (ts ++ [Token.grouping mark])
  /-- Names, units and colours change. -/
  | rename {ts ts' : Expression} (h : ts'.map Token.bare = ts.map Token.bare) : RowMove q ts ts'
  | empty (ts : Expression) : RowMove q ts []
  | load (ts : Expression) {ts' : Expression} (h : q ts') : RowMove q ts ts'

/-- A chain of row moves. -/
abbrev RowMoves (q : Expression → Prop) : Expression → Expression → Prop :=
  Relation.ReflTransGen (RowMove q)

/-- What every row move keeps is kept by a chain of them. -/
theorem RowMoves.keep {q P : Expression → Prop} {ts ts' : Expression} (h : RowMoves q ts ts')
    (hstep : ∀ ts ts', RowMove q ts ts' → P ts → P ts') (hts : P ts) : P ts' := by
  induction h with
  | refl => exact hts
  | tail _ hmove ih => exact hstep _ _ hmove ih

variable {q : Expression → Prop} {ts us : Expression}

/-! ## No two operators -/

theorem wellShaped_nil : WellShaped [] :=
  ⟨.nil, fun _ ht => absurd ht List.not_mem_nil, fun _ ht => absurd ht List.not_mem_nil⟩

/-- Two well shaped rows can be joined where no operators meet. -/
theorem WellShaped.append (hts : ts.WellShaped) (hus : us.WellShaped)
    (hseam : ∀ l ∈ ts.getLast?, ∀ r ∈ us.head?, ¬(l.isOperator = true ∧ r.isOperator = true)) :
    (ts ++ us).WellShaped where
  apart := List.isChain_append.2 ⟨hts.apart, hus.apart, hseam⟩
  operators t ht := (List.mem_append.1 ht).elim (hts.operators t) (hus.operators t)
  operands t ht := (List.mem_append.1 ht).elim (hts.operands t) (hus.operands t)

/-- The front of a well shaped row is well shaped. -/
theorem WellShaped.left (h : (ts ++ us).WellShaped) : ts.WellShaped where
  apart := (List.isChain_append.1 h.apart).1
  operators t ht := h.operators t (List.mem_append_left _ ht)
  operands t ht := h.operands t (List.mem_append_left _ ht)

/-- An operand that can be read is a well shaped row. -/
theorem wellShaped_operand {t : Token} (ht : t.isOperand = true) {x : Double}
    (hread : Number.read t.value = .ok x) : WellShaped [t] where
  apart := .singleton t
  operators t' ht' hop := by
    obtain rfl := List.mem_singleton.1 ht'
    cases ht.symm.trans (Token.isOperand_of_isOperator hop)
  operands t' ht' _ := by
    obtain rfl := List.mem_singleton.1 ht'
    exact ⟨x, hread⟩

/-- An operator that is one of the four is well shaped. -/
theorem wellShaped_operator {t : Token} (ht : t.isOperator = true) {op : Operator}
    (hop : t.value = op.symbol) : WellShaped [t] where
  apart := .singleton t
  operators t' ht' _ := by
    obtain rfl := List.mem_singleton.1 ht'
    exact ⟨op, hop⟩
  operands t' ht' hoperand := by
    obtain rfl := List.mem_singleton.1 ht'
    cases hoperand.symm.trans (Token.isOperand_of_isOperator ht)

/-- A mark is well shaped. -/
theorem wellShaped_grouping (mark : Mark) : WellShaped [Token.grouping mark] where
  apart := .singleton _
  operators t ht hop := by
    obtain rfl := List.mem_singleton.1 ht
    cases hop
  operands t ht hoperand := by
    obtain rfl := List.mem_singleton.1 ht
    cases hoperand

/-- An operand can stand behind anything. -/
theorem WellShaped.concat_operand (h : ts.WellShaped) {t : Token} (ht : t.isOperand = true)
    {x : Double} (hread : Number.read t.value = .ok x) : (ts ++ [t]).WellShaped := by
  refine h.append (wellShaped_operand ht hread) fun l _ r hr hops => ?_
  obtain rfl := Option.some.inj hr
  cases ht.symm.trans (Token.isOperand_of_isOperator hops.2)

/-- Names, units and colours do not matter. -/
theorem wellShaped_map_bare : WellShaped (ts.map Token.bare) ↔ WellShaped ts where
  mp h := ⟨(List.isChain_map Token.bare).1 h.apart, List.forall_mem_map.1 h.operators,
    List.forall_mem_map.1 h.operands⟩
  mpr h := ⟨(List.isChain_map Token.bare).2 h.apart, List.forall_mem_map.2 h.operators,
    List.forall_mem_map.2 h.operands⟩

/-- No row move puts an operator behind another. -/
theorem RowMove.wellShaped (h : RowMove q ts us) (hq : ∀ ts, q ts → ts.WellShaped)
    (hts : ts.WellShaped) : us.WellShaped := by
  cases h with
  | @operand _ t u ht _ hread hu =>
    have hlast : WellShaped [u] := by
      rcases hu with ⟨op, rfl⟩ | rfl
      · exact wellShaped_operator rfl rfl
      · exact wellShaped_grouping .closing
    rw [List.append_cons]
    refine (hts.concat_operand ht hread).append hlast fun l hl r _ hops => ?_
    rw [List.getLast?_concat] at hl
    obtain rfl := Option.some.inj hl
    cases ht.symm.trans (Token.isOperand_of_isOperator hops.1)
  | operator hlast op =>
    refine hts.append (wellShaped_operator rfl rfl) fun l hl r _ hops => ?_
    cases (hlast l hl).symm.trans hops.1
  | @replace front last hlast op =>
    -- what stood before the old operator was none itself
    have hseam := (List.isChain_append.1 hts.apart).2.2
    refine hts.left.append (wellShaped_operator hlast rfl) fun l hl r _ hops => ?_
    exact hseam l hl last rfl ⟨hops.1, hlast⟩
  | mark ts mark =>
    refine hts.append (wellShaped_grouping mark) fun l hl r hr hops => ?_
    obtain rfl := Option.some.inj hr
    cases hops.2
  | rename h => rwa [← wellShaped_map_bare, h, wellShaped_map_bare]
  | empty ts => exact wellShaped_nil
  | load ts h => exact hq _ h

/-! ## No operand without what ends it -/

theorem followed_nil : Followed [] := ⟨.nil, fun _ ht => by cases ht⟩

/-- What is no operand needs nothing behind it. -/
theorem followed_singleton {t : Token} (ht : t.isOperand = false) : Followed [t] := by
  refine ⟨.singleton t, fun t' ht' => ?_⟩
  obtain rfl := Option.some.inj ht'
  exact ht

/-- Rows that end with no operand can be joined anywhere. -/
theorem Followed.append (hts : ts.Followed) (hus : us.Followed) : (ts ++ us).Followed where
  next := List.isChain_append.2 ⟨hts.next, hus.next, fun l hl r _ hoperand => by
    cases (hts.last l hl).symm.trans hoperand⟩
  last t ht := by
    rw [List.getLast?_append] at ht
    rcases Option.or_eq_some_iff.1 ht with ht | ⟨-, ht⟩
    · exact hus.last t ht
    · exact hts.last t ht

/-- Names, units and colours do not matter here either. -/
theorem followed_map_bare : Followed (ts.map Token.bare) ↔ Followed ts where
  mp h := by
    refine ⟨(List.isChain_map Token.bare).1 h.next, fun t ht => ?_⟩
    have hbare := h.last t.bare
    rw [List.getLast?_map, ht] at hbare
    exact hbare rfl
  mpr h := by
    refine ⟨(List.isChain_map Token.bare).2 h.next, fun t ht => ?_⟩
    rw [List.getLast?_map] at ht
    obtain ⟨t', ht', rfl⟩ := Option.map_eq_some_iff.1 ht
    exact h.last t' ht'

/-- A row move puts an operand into the row only with what ends it. -/
theorem RowMove.followed (h : RowMove q ts us) (hq : ∀ ts, q ts → ts.Followed)
    (hts : ts.Followed) : us.Followed := by
  cases h with
  | @operand _ t u _ _ _ hu =>
    refine hts.append ⟨.cons_cons (fun _ => ?_) (.singleton u), fun u' hu' => ?_⟩
    · rcases hu with ⟨op, rfl⟩ | rfl
      · exact .inl rfl
      · exact .inr rfl
    · obtain rfl := Option.some.inj hu'
      rcases hu with ⟨op, rfl⟩ | rfl <;> rfl
  | operator _ op => exact hts.append (followed_singleton rfl)
  | @replace front last hlast op =>
    have hchain := List.isChain_append.1 hts.next
    refine ⟨List.isChain_append.2 ⟨hchain.1, .singleton _, fun l _ r hr _ => ?_⟩, fun t ht => ?_⟩
    · obtain rfl := Option.some.inj hr
      exact .inl hlast
    · rw [List.getLast?_concat] at ht
      obtain rfl := Option.some.inj ht
      exact Token.isOperand_of_isOperator hlast
  | mark ts mark => exact hts.append (followed_singleton rfl)
  | rename h => rwa [← followed_map_bare, h, followed_map_bare]
  | empty ts => exact followed_nil
  | load ts h => exact hq _ h

/-- So no operand or opening mark stands straight behind an operand. -/
theorem Followed.apart (h : ts.Followed) :
    ts.IsChain fun l r => ¬(l.isOperand = true ∧ (r.isOperand = true ∨ r.isOpening = true)) := by
  refine h.next.imp fun l r hnext hstarts => ?_
  obtain ⟨hoperand, hstarts⟩ := hstarts
  rcases hnext hoperand with hop | hclosing
  · rcases hstarts with hstarts | hstarts
    · cases hstarts.symm.trans (Token.isOperand_of_isOperator hop)
    · cases hop.symm.trans (Token.isOperator_of_isOpening hstarts)
  · obtain ⟨hnumber, hopening⟩ := Token.not_starts_of_isClosing hclosing
    rcases hstarts with hstarts | hstarts
    · cases hstarts.symm.trans hnumber
    · cases hstarts.symm.trans hopening

end Expression

/-- Whether the action loads a past calculation: one that is there. -/
def Action.Loads (h : History) : Action → Prop
  | .load index => 0 ≤ index ∧ index < h.entries.length
  | _ => False

namespace Machine

open Outcome Expression

variable {q : Expression → Prop} {m : Machine}

/-! ## What actions do to the row -/

/-- A refused argument leaves the row alone. -/
theorem checking_rowMoves {α : Type} {argument : Except Fault α} {action : α → Outcome Event}
    (h : ∀ a, RowMoves q m.committed (action a).machine.committed) :
    RowMoves q m.committed (m.checking argument action).machine.committed :=
  checking_elim (P := fun o => RowMoves q m.committed o.machine.committed) (fun _ => .refl)
    fun a _ => h a

/-- An action that may be ignored changes the row as it does outside the error state. -/
theorem guarded_rowMoves {name : String} {action : Machine → Outcome Event}
    (h : ∀ m : Machine, RowMoves q m.committed (action m).machine.committed) :
    RowMoves q m.committed (m.guarded name action).machine.committed :=
  guarded_elim (P := fun o => RowMoves q m.committed o.machine.committed) (fun _ => .refl)
    fun _ => h m.quiet

theorem typeKey_committed (m : Machine) (key : Char) : (m.typeKey key).committed = m.committed := by
  obtain ⟨naming, intermediate, heq⟩ := m.exists_typeKey_eq key
  rw [heq]

/-- What is committed with an operator or closing mark behind it. -/
theorem commit_rowMoves {u : Token} (m : Machine) {next : Machine → Outcome Event}
    (hu : (∃ op, u = Token.operator op) ∨ u = Token.grouping .closing)
    (hnext : ∀ m : Machine, (next m).machine.committed = m.committed ++ [u]) :
    RowMoves q m.committed (m.commit.andThen next).machine.committed := by
  cases hread : Number.read m.buffer with
  | error fault =>
    rw [commit_of_error hread]
    exact .refl
  | ok x =>
    rw [commit_of_read hread, andThen_of_done rfl]
    dsimp only [noted]
    rw [hnext, pushed, List.append_assoc]
    exact .single (.operand rfl hread hu)

/-- An operator is put behind what it commits, behind no operator, or in the place of one. -/
theorem typeOperator_rowMoves (m : Machine) (op : Operator) :
    RowMoves q m.committed (m.typeOperator op).machine.committed := by
  unfold typeOperator
  split
  · exact commit_rowMoves m (.inl ⟨op, rfl⟩) fun _ => rfl
  · split
    · next last hlast =>
      obtain ⟨hlast, hop⟩ := Option.filter_eq_some_iff.1 hlast
      obtain ⟨front, hfront⟩ := List.getLast?_eq_some_iff.1 hlast
      dsimp only [noted]
      rw [hfront, List.dropLast_concat]
      exact .single (.replace hop op)
    · next hlast =>
      refine .single (.operator (fun t ht => ?_) op)
      exact Bool.eq_false_iff.2 (Option.filter_eq_none_iff.1 hlast t ht)

/-- A mark can be put anywhere, and a closing one ends what it commits. -/
theorem typeMark_rowMoves (m : Machine) (mark : Mark) :
    RowMoves q m.committed (m.typeMark mark).machine.committed := by
  cases mark with
  | opening =>
    -- a factor is committed with the multiplication behind it
    refine andThen_elim (P := fun m' => RowMoves q m.committed m'.committed) ?_ fun _ => ?_
    · split
      · exact typeOperator_rowMoves m _
      · exact .refl
    · refine .tail ?_ (.mark _ .opening)
      split
      · exact typeOperator_rowMoves m _
      · exact .refl
  | closing =>
    simp only [typeMark, commitTyped]
    split
    · exact .single (.mark _ .closing)
    · exact commit_rowMoves m (.inr rfl) fun _ => rfl

/-- A calculation of known operators empties the row, or leaves it as it is. -/
theorem calculate_rowMoves (h : m.committed.Known) :
    RowMoves q m.committed m.calculate.machine.committed := by
  have hends := m.calculates
  rw [calculate_fault h] at hends
  generalize m.calculate.machine = m' at hends ⊢
  cases hends with
  | ignored _ => exact .refl
  | nothing _ _ => exact .refl
  | fail _ _ => exact .single (.empty _)
  | conclude _ _ _ _ _ => exact .single (.empty _)

/-- Naming the last operand renames a part of the row. -/
theorem editNaming_rowMoves (m : Machine) (target : Target) (change : Naming → Naming)
    (missing : Event) :
    RowMoves q m.committed (m.editNaming target change missing).machine.committed := by
  cases target with
  | current =>
    simp only [editNaming, editBuffer]
    split <;> exact .refl
  | previous =>
    simp only [editNaming, editPrevious]
    split
    · next htokens => exact .single (.rename (map_bare_editLastOperand? htokens))
    · exact .refl

/-- A load puts in the row of an entry. -/
theorem load_rowMoves (m : Machine) {index : Int}
    (h : (Action.load index).Loads m.history → ∀ e ∈ m.history.entries, q e.tokens) :
    RowMoves q m.committed (m.load index).machine.committed := by
  by_cases hloads : 0 ≤ index ∧ index < m.history.entries.length
  · obtain ⟨i, rfl⟩ := Int.eq_ofNat_of_zero_le hloads.1
    rw [load_of_lt m (Int.ofNat_lt.1 hloads.2)]
    exact .single (.load _ (h hloads _ (List.getElem_mem _)))
  · rw [load_inert hloads]

/-- An action changes a committed row of known operators by row moves, and loads only what the
history holds. -/
theorem perform_rowMoves (hknown : m.committed.Known) {action : Action}
    (h : action.Loads m.history → ∀ e ∈ m.history.entries, q e.tokens) :
    RowMoves q m.committed (m.perform action).machine.committed := by
  cases action with
  | digit key =>
    refine checking_rowMoves fun c => guarded_rowMoves fun m => ?_
    dsimp only [done]
    rw [typeKey_committed]
  | point =>
    refine guarded_rowMoves fun m => ?_
    dsimp only [done]
    rw [typeKey_committed]
  | parenthesis mark =>
    exact checking_rowMoves fun mark => guarded_rowMoves fun m => typeMark_rowMoves m mark
  | operator spelling =>
    exact checking_rowMoves fun op => guarded_rowMoves fun m => typeOperator_rowMoves m op
  | calculate => exact calculate_rowMoves hknown
  | clear => exact .single (.empty _)
  -- the keys that edit the number leave the row, or empty it with the error state
  | delete =>
    refine guarded_rowMoves fun m => ?_
    dsimp only [done]
    split <;> exact .refl
  | toggleSign =>
    refine guarded_rowMoves fun m => ?_
    split
    · exact .single (.empty _)
    · dsimp only [done]
      split <;> exact .refl
  | percentage =>
    refine guarded_rowMoves fun m => ?_
    split
    · exact .single (.empty _)
    · exact .refl
  | label target text color =>
    exact checking_rowMoves fun target => checking_rowMoves fun color =>
      guarded_rowMoves fun m => editNaming_rowMoves m target _ _
  | unit target text =>
    exact checking_rowMoves fun target => guarded_rowMoves fun m => editNaming_rowMoves m target _ _
  | load index => exact load_rowMoves m h
  | save label value unit color => exact checking_rowMoves fun vs => .refl
  | forget label => exact .refl
  | retrieve label => exact checking_rowMoves fun v => guarded_rowMoves fun m => .refl
  | retrieveSaved value naming =>
    exact checking_rowMoves fun naming => guarded_rowMoves fun m => .refl

/-! ## The rows of a run -/

/-- The rows of the machine are well shaped: the committed one and those of the history. -/
structure ShapedRows (m : Machine) : Prop where
  committed : m.committed.WellShaped
  history : ∀ e ∈ m.history.entries, e.tokens.WellShaped

theorem shapedRows_new (limit : Nat) : (new (.ofLimit limit)).ShapedRows :=
  ⟨wellShaped_nil, fun _ he => absurd he List.not_mem_nil⟩

/-- The row that `calculate` evaluates is well shaped, if the number being typed can be read. -/
theorem ShapedRows.row (h : m.ShapedRows)
    (hread : m.settled = false → ∃ x, Number.read m.buffer = .ok x) : m.row.WellShaped := by
  cases hs : m.settled with
  | true => exact (row_of_settled hs).symm ▸ h.committed
  | false =>
    obtain ⟨x, hx⟩ := hread hs
    exact (row_of_typed hs).symm ▸ h.committed.concat_operand rfl hx

/-- The shown row too. -/
theorem ShapedRows.expression (h : m.ShapedRows) {ts : Expression}
    (hts : m.expression = .ok ts) : ts.WellShaped := by
  unfold Machine.expression Token.operand at hts
  split at hts
  · cases hread : Number.read m.buffer with
    | error fault =>
      rw [hread] at hts
      cases hts
    | ok x =>
      rw [hread] at hts
      obtain rfl := Except.ok.inj hts
      exact h.committed.concat_operand rfl hread
  · obtain rfl := Except.ok.inj hts
    exact h.committed

/-- An action keeps the rows in shape: it changes the committed one by row moves, and what it adds
to the history is the row it evaluated. -/
theorem ShapedRows.perform (h : m.ShapedRows) (action : Action) :
    (m.perform action).machine.ShapedRows where
  committed :=
    (perform_rowMoves h.committed.operators fun _ => h.history).keep
      (fun _ _ hmove => hmove.wellShaped fun _ => id) h.committed
  history :=
    forall_mem_entries_perform h.history fun e he => by
      obtain ⟨hrow, hread⟩ := tokens_of_calculation? he
      exact hrow ▸ h.row hread

/-- Every run leaves the rows well shaped. -/
theorem ShapedRows.run (h : m.ShapedRows) (actions : List Action) : (m.run actions).ShapedRows := by
  induction actions generalizing m with
  | nil => exact h
  | cons action actions ih => exact ih (h.perform action)

/-- Without a load, an action leaves no operand without what ends it. -/
theorem perform_followed (hm : m.ShapedRows) (h : m.committed.Followed) {action : Action}
    (hload : ¬action.Loads m.history) : (m.perform action).machine.committed.Followed :=
  (perform_rowMoves hm.committed.operators fun hloads => absurd hloads hload).keep
    (fun _ _ hmove => hmove.followed fun _ => id) h

/-- A run without a load leaves no operand without what ends it. -/
theorem run_followed (hm : m.ShapedRows) (h : m.committed.Followed) {actions : List Action}
    (hload : Along (fun m a => ¬a.Loads m.history) m actions) :
    (m.run actions).committed.Followed := by
  induction actions generalizing m with
  | nil => exact h
  | cons action actions ih => exact ih (hm.perform action) (perform_followed hm h hload.1) hload.2

/-- On every machine that a run of actions leads to, refused ones among them: no two operators stand
side by side, every operator is one of the four and every operand can be read, in the committed
row, in every entry of the history and in the shown row if there is one. And if the run loads
nothing, straight behind every committed operand stands an operator or a closing mark, so that no
operand ends the row and neither an operand nor an opening mark follows on one. -/
theorem run_rowsShaped (limit : Nat) (actions : List Action) :
    let m := (new (.ofLimit limit)).run actions
    m.committed.WellShaped ∧
      (∀ e ∈ m.history.entries, e.tokens.WellShaped) ∧
      (∀ ts, m.expression = .ok ts → ts.WellShaped) ∧
      (Along (fun m a => ¬a.Loads m.history) (new (.ofLimit limit)) actions →
        m.committed.Followed ∧
          m.committed.IsChain fun l r =>
            ¬(l.isOperand = true ∧ (r.isOperand = true ∨ r.isOpening = true))) := by
  have h := (shapedRows_new limit).run actions
  refine ⟨h.committed, h.history, fun ts => h.expression, fun hload => ?_⟩
  have hfollowed := run_followed (shapedRows_new limit) followed_nil hload
  exact ⟨hfollowed, hfollowed.apart⟩

/-- A number times a group with an operator that is replaced, and a load that the history has
nothing for. -/
def groupRun : List Action :=
  [.digit "2", .parenthesis "(", .digit "3", .operator "+", .operator "-", .digit "4",
    .parenthesis ")", .load 0]

/-- A factor in front of a group is committed with its multiplication, and the minus takes the place
of the plus. -/
theorem run_rowsShaped_of_groupRun :
    ((new (.ofLimit 0)).run groupRun).committed.map Token.value =
        ["2", "×", "(", "3", "-", "4", ")"] ∧
      Along (fun m a => ¬a.Loads m.history) (new (.ofLimit 0)) groupRun ∧
      ((new (.ofLimit 0)).run groupRun).committed.Followed := by
  have hload : Along (fun m a => ¬a.Loads m.history) (new (.ofLimit 0)) groupRun := by
    refine ⟨id, id, id, id, id, id, id, fun hloads => ?_, trivial⟩
    exact absurd hloads.2 (by decide +kernel)
  exact ⟨by decide +kernel, hload, ((run_rowsShaped 0 groupRun).2.2.2 hload).1⟩

end Machine

end Keypad
