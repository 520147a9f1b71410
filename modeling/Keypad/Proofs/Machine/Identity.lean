import Keypad.Proofs.Machine.Shown

/-!
# How operands are told apart

A commit takes the next number for the ident of its operand, and takes it even if it is refused. So
the numbers of a row ascend from left to right, below the next one, whatever happened in between;
and so they do in a row that goes into the history and in one that comes back out of it, since the
operands committed behind it get numbers that were never given.

* `Move.marksRows` — operands have idents, and operators and marks have none.
* `run_toldApart`  — the rows of every machine that a run leads to.
-/

namespace Keypad

namespace Machine

/-- The operands of the row have the idents of numbers below this one, which ascend from left to
right; operators and marks have none. -/
structure ToldApart (n : Nat) (ts : Expression) : Prop where
  operand : ∀ t ∈ ts, t.isOperand = true → ∃ k < n, t.ident = some (operandIdent k)
  other : ∀ t ∈ ts, t.isOperand = false → t.ident = none
  ascending : ts.Pairwise fun l r => ∀ j k,
    l.ident = some (operandIdent j) → r.ident = some (operandIdent k) → j < k

/-- Just the operands of the row have idents. -/
def Marked (ts : Expression) : Prop := ∀ t ∈ ts, t.ident.isSome = t.isOperand

/-- Just the operands have idents, in the committed row and in those of the history. -/
structure MarksRows (m : Machine) : Prop where
  committed : Marked m.committed
  history : ∀ e ∈ m.history.entries, Marked e.tokens

variable {p : String → Prop} {m m' : Machine} {ts ts' : Expression}

/-! ## Operands have idents -/

theorem marked_nil : Marked [] := fun _ ht => absurd ht List.not_mem_nil

theorem Marked.concat (h : Marked ts) {t : Token} (ht : t.ident.isSome = t.isOperand) :
    Marked (ts ++ [t]) :=
  List.forall_mem_append.2 ⟨h, List.forall_mem_singleton.2 ht⟩

/-- An edit of a naming gives no token an ident and takes none away. -/
theorem Marked.edit {change : Naming → Naming} (h : Marked ts)
    (hts : editLastOperand? (fun t => { t with naming := change t.naming }) ts = some ts') :
    Marked ts' := by
  have hsame := map_editLastOperand? (fun t => t.ident.isSome == t.isOperand)
    (fun t => { t with naming := change t.naming }) (fun _ => rfl) hts
  have hall (us : Expression) :
      Marked us ↔ ∀ b ∈ us.map fun t => t.ident.isSome == t.isOperand, b = true := by
    simp only [Marked, List.forall_mem_map, beq_iff_eq]
  rwa [hall, hsame, ← hall]

theorem marksRows_new (limit : Nat) : (new (.ofLimit limit)).MarksRows :=
  ⟨marked_nil, fun _ he => absurd he List.not_mem_nil⟩

/-- No move leaves an operand without an ident or an operator with one. -/
theorem Move.marksRows (h : Move p m m') (hm : m.MarksRows) : m'.MarksRows := by
  cases h with
  | type _ _ =>
    obtain ⟨naming, intermediate, heq⟩ := m.exists_typeKey_eq ‹Char›
    rw [heq]
    exact ⟨hm.committed, hm.history⟩
  | push _ _ | operator _ _ | opening _ | closing _ => exact ⟨hm.committed.concat rfl, hm.history⟩
  | replace _ _ hlast _ _ =>
    obtain ⟨front, hfront⟩ := List.getLast?_eq_some_iff.1 hlast
    obtain ⟨hrest, hold⟩ := List.forall_mem_append.1 (hfront ▸ hm.committed)
    have hsame := List.forall_mem_singleton.1 hold
    refine ⟨?_, hm.history⟩
    rw [hfront, List.dropLast_concat]
    exact Marked.concat hrest hsame
  | conclude _ _ =>
    -- the committed row goes into the history as it is
    refine ⟨marked_nil, fun e he => ?_⟩
    rcases List.mem_cons.1 (List.mem_of_mem_take he) with rfl | he
    · exact hm.committed
    · exact hm.history e he
  | fail _ | clear => exact ⟨marked_nil, hm.history⟩
  | edit _ htokens => exact ⟨hm.committed.edit htokens, hm.history⟩
  | load hentry => exact ⟨hm.history _ hentry, hm.history⟩
  | _ => exact ⟨hm.committed, hm.history⟩

/-! ## Their numbers ascend -/

/-- The idents of a numbered row ascend, since they are the numbers in order. -/
theorem Numbered.ascending {n : Nat} (h : Numbered n ts) :
    ts.Pairwise fun l r => ∀ j k,
      l.ident = some (operandIdent j) → r.ident = some (operandIdent k) → j < k := by
  obtain ⟨ks, hks, -, hts⟩ := h
  -- `Numbered` speaks of the idents alone; the operators between them are put back by the filter
  have hidents : (ts.filterMap Token.ident).Pairwise fun a b =>
      ∀ j k, a = operandIdent j → b = operandIdent k → j < k := by
    rw [hts, List.pairwise_map]
    refine hks.imp fun hlt j k hj hk => ?_
    rwa [← operandIdent_inj.1 hj, ← operandIdent_inj.1 hk]
  exact (List.pairwise_filterMap.1 hidents).imp fun hlr j k hl hr => hlr _ hl _ hr j k rfl rfl

/-- A numbered row whose operands alone have idents has its operands told apart. -/
theorem Numbered.toldApart {n : Nat} (h : Numbered n ts) (hmarked : Marked ts) :
    ToldApart n ts where
  operand t ht ho := by
    obtain ⟨ident, hident⟩ := Option.isSome_iff_exists.1 ((hmarked t ht).trans ho)
    obtain ⟨k, hk, rfl⟩ := h.exists_lt ht hident
    exact ⟨k, hk, hident⟩
  other t ht ho :=
    Option.isNone_iff_eq_none.1 (Option.isSome_eq_false_iff.1 ((hmarked t ht).trans ho))
  ascending := h.ascending

/-- On every machine that a run of actions leads to, refused ones and refused commits among them:
the operands of the committed row, and those of every entry of the history, have the idents of
ascending numbers below the next one; and of the shown row, if there is one, only the last token can
be marked as the current one. -/
theorem run_toldApart (limit : Nat) (actions : List Action) :
    let m := (new (.ofLimit limit)).run actions
    ToldApart m.nextIdent m.committed ∧
      (∀ e ∈ m.history.entries, ToldApart m.nextIdent e.tokens) ∧
      ∀ ts, m.expression = .ok ts → ∀ t ∈ ts.dropLast, t.ident ≠ some currentIdent := by
  intro m
  have hmoves := run_moves (new (.ofLimit limit)) actions
  have hnum : m.WellNumbered := hmoves.keep (fun _ _ => Move.wellNumbered) (wellNumbered_new limit)
  have hmarks : m.MarksRows := hmoves.keep (fun _ _ => Move.marksRows) (marksRows_new limit)
  exact ⟨hnum.committed.toldApart hmarks.committed,
    fun e he => (hnum.history e he).toldApart (hmarks.history e he),
    fun _ => hnum.ident_ne_current_of_expression⟩

/-- A sum is loaded and added to. The number `2` was used up by a commit that was refused. -/
example :
    ((new (.ofLimit 0)).run [.digit "1", .operator "+", .digit "2", .calculate,
      .retrieveSaved "" ⟨none, none, none⟩, .operator "+", .load 0, .operator "*", .digit "3",
      .operator "-"]).committed.filterMap Token.ident =
        ["operand-0", "operand-1", "operand-3"] := by
  decide +kernel

end Machine

end Keypad
