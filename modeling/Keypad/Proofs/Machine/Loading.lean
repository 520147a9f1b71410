import Keypad.Proofs.Machine.Log

/-!
# Loading a calculation

An entry of the history holds all that its result was made of, so a calculation that is loaded gives
its result again, whatever the machine did before and even from the error state. Loading leaves
nothing of the number that was being typed, so the row that is calculated is the row of the entry;
and edits of a name or unit in it change nothing that evaluation reads.

* `load_calculate`     — a kept calculation is reproduced.
* `run_load_calculate` — on every machine that a run leads to.
-/

namespace Keypad

/-- An edit of the name, colour or unit of the operand committed last. -/
def Action.EditsPrevious : Action → Prop
  | .label target _ _ | .unit target _ => target = Target.previous.name
  | _ => False

/-- The token without what a user attached to it. -/
def Token.bare (t : Token) : Token := { t with naming := .blank }

namespace Expression

/-- Evaluation reads nothing of what `Token.bare` leaves out. -/
theorem superficial_bare : Superficial Token.bare := ⟨fun _ => rfl, fun _ => rfl⟩

/-- Rows that differ in names, units and colours only have the same value. -/
theorem evaluate_congr {ts ts' : Expression} (h : ts.map Token.bare = ts'.map Token.bare) :
    evaluate ts = evaluate ts' := by
  rw [← evaluate_map superficial_bare ts, h, evaluate_map superficial_bare]

end Expression

namespace History

/-- An index in range looks up its entry. -/
theorem get?_natCast (h : History) {i : Nat} (hi : i < h.entries.length) :
    h.get? i = some h.entries[i] := by
  have hneg : ¬(i : Int) < 0 := Int.not_lt.2 (Int.natCast_nonneg i)
  simp only [get?, hneg, if_false, Int.toNat_natCast]
  exact List.getElem?_eq_getElem hi

/-- An index beyond the entries looks up nothing. -/
theorem get?_of_length_le (h : History) {index : Int} (hlength : h.entries.length ≤ index) :
    h.get? index = none := by
  have hneg : ¬index < 0 := by omega
  simp only [get?, hneg, if_false]
  exact List.getElem?_eq_none (by omega)

end History

namespace Machine

open Outcome

/-- An edit of a naming changes nothing but that. -/
theorem map_bare_editLastOperand? {change : Naming → Naming} {ts ts' : Expression}
    (h : editLastOperand? (fun t => { t with naming := change t.naming }) ts = some ts') :
    ts'.map Token.bare = ts.map Token.bare :=
  map_editLastOperand? Token.bare (fun t => { t with naming := change t.naming }) (fun _ => rfl) h

/-- `calculate` comes to the result of the entry. -/
structure Reproduces (m : Machine) (e : Entry) : Prop where
  fault : m.calculate.fault = none
  failed : m.calculate.machine.failed = false
  buffer : m.calculate.machine.buffer = e.result
  committed : m.calculate.machine.committed = []

/-- The entry is loaded, up to names, units and colours, and nothing has been typed since. -/
structure HoldsEntry (m : Machine) (e : Entry) : Prop where
  failed : m.failed = false
  settled : m.settled = true
  same : m.committed.map Token.bare = e.tokens.map Token.bare

variable {m : Machine} {e : Entry}

/-! ## Loading -/

/-- Loading leaves nothing of the machine but its history, variables and idents. -/
theorem load_of_lt (m : Machine) {i : Nat} (hi : i < m.history.entries.length) :
    m.load i = done (m.loaded m.history.entries[i]) := by
  have hneg : ¬(i : Int) < 0 := Int.not_lt.2 (Int.natCast_nonneg i)
  rw [load, if_neg hneg, History.get?_natCast _ hi]
  rfl

/-- An index beyond the history has no effect. -/
theorem load_inert {index : Int} (h : ¬(0 ≤ index ∧ index < m.history.entries.length)) :
    (m.load index).machine = m := by
  unfold load
  split
  · rfl
  · next hindex =>
    rw [History.get?_of_length_le _ (by omega)]
    rfl

theorem holdsEntry_loaded (m : Machine) (e : Entry) : (m.loaded e).HoldsEntry e := ⟨rfl, rfl, rfl⟩

/-! ## Calculating what was loaded -/

/-- What `calculate` does to a row that has the value of the entry. -/
theorem HoldsEntry.calculate_eq (h : m.HoldsEntry e) (he : e.IsCalculated) :
    m.calculate =
      noted (m.quiet.concluded e.result) (.calculated m.committed e.result) := by
  obtain ⟨x, hx, hresult⟩ := he.result
  have hvalue : Expression.evaluate m.committed = .ok x :=
    (Expression.evaluate_congr h.same).trans hx
  -- an empty row would take another branch, so that the entry is not empty is used here
  have hne : m.committed ≠ [] := by
    intro hnil
    have hsame := h.same
    rw [hnil, List.map_nil] at hsame
    exact he.ne_nil (List.map_eq_nil_iff.1 hsame.symm)
  rw [calculate_of_settled h.failed h.settled, hresult]
  exact evaluateCommitted_of_ok (m := m.quiet) hne hvalue

/-- A machine that holds a calculation comes to its result. -/
theorem HoldsEntry.reproduces (h : m.HoldsEntry e) (he : e.IsCalculated) : m.Reproduces e := by
  have heq := h.calculate_eq he
  constructor
  · rw [heq]; rfl
  · rw [heq]; exact h.failed
  · rw [heq]; rfl
  · rw [heq]; rfl

/-! ## Edits in between -/

/-- A check of an argument leaves the entry where it was, whether or not it fails. -/
theorem HoldsEntry.checking {α : Type} (h : m.HoldsEntry e) (argument : Except Fault α)
    {action : α → Outcome Event} (haction : ∀ a, (action a).machine.HoldsEntry e) :
    (m.checking argument action).machine.HoldsEntry e :=
  checking_elim (P := fun o => o.machine.HoldsEntry e) (fun _ => h) fun a _ => haction a

/-- An edit of the operand committed last leaves the entry where it was. -/
theorem HoldsEntry.editPrevious (h : m.HoldsEntry e) {name : String} (change : Naming → Naming)
    (missing : Event) :
    (m.guarded name fun m => m.editNaming .previous change missing).machine.HoldsEntry e := by
  rw [guarded_of_not_failed h.failed, editNaming, Machine.editPrevious]
  split
  · next tokens htokens =>
    exact ⟨h.failed, h.settled, (map_bare_editLastOperand? htokens).trans h.same⟩
  · exact ⟨h.failed, h.settled, h.same⟩

/-- Each of the edits leaves the entry where it was, refused ones too. -/
theorem HoldsEntry.perform (h : m.HoldsEntry e) {action : Action} (hedit : action.EditsPrevious) :
    (m.perform action).machine.HoldsEntry e := by
  have htarget : Target.read Target.previous.name = .ok .previous := by decide
  cases action with
  | label target text color =>
    obtain rfl : target = _ := hedit
    rw [Machine.perform, editLabel, htarget]
    exact h.checking color.readColor fun color => h.editPrevious _ _
  | unit target text =>
    obtain rfl : target = _ := hedit
    rw [Machine.perform, editUnit, htarget]
    exact h.editPrevious _ _
  | _ => exact absurd hedit id

/-- A run of edits leaves the entry where it was. -/
theorem HoldsEntry.run (h : m.HoldsEntry e) {edits : List Action}
    (hedits : ∀ a ∈ edits, a.EditsPrevious) : (m.run edits).HoldsEntry e := by
  induction edits generalizing m with
  | nil => exact h
  | cons edit edits ih =>
    rw [run_cons]
    exact ih (h.perform (hedits edit List.mem_cons_self)) fun a ha =>
      hedits a (List.mem_cons_of_mem _ ha)

/-! ## Reproducing -/

/-- A kept calculation that is loaded comes to its result again, and goes into the history as it
was. -/
theorem load_calculate {i : Nat} (hi : i < m.history.entries.length)
    (he : m.history.entries[i].IsCalculated) :
    (m.load i).machine.Reproduces m.history.entries[i] ∧
      (m.load i).machine.calculate.machine.history = m.history.push m.history.entries[i] := by
  rw [load_of_lt m hi]
  have hholds := m.holdsEntry_loaded m.history.entries[i]
  refine ⟨hholds.reproduces he, ?_⟩
  rw [show (done (m.loaded m.history.entries[i]) : Outcome Event).machine =
    m.loaded m.history.entries[i] from rfl, hholds.calculate_eq he]
  rfl

/-- On every machine that a run leads to, loading any past calculation and calculating it is not
refused, comes to its result, and puts the entry into the history again as it is; and it comes to
the same result if names and units of the operand committed last are edited in between. -/
theorem run_load_calculate (limit : Nat) (actions : List Action) {i : Nat}
    (hi : i < ((new (.ofLimit limit)).run actions).history.entries.length) {edits : List Action}
    (hedits : ∀ a ∈ edits, a.EditsPrevious) :
    let m := (new (.ofLimit limit)).run actions
    let e := m.history.entries[i]
    (m.load i).fault = none ∧
      (m.load i).machine.Reproduces e ∧
      (m.load i).machine.calculate.machine.history = m.history.push e ∧
      (m.load i).machine.calculate.machine.history.entries.head? = some e ∧
      ((m.load i).machine.run edits).Reproduces e := by
  intro m e
  have he : e.IsCalculated :=
    run_isCalculated (fun e he => absurd he List.not_mem_nil) actions e (List.getElem_mem hi)
  obtain ⟨hreproduces, hhistory⟩ := load_calculate hi he
  refine ⟨by rw [load_of_lt m hi]; rfl, hreproduces, hhistory, ?_, ?_⟩
  · rw [hhistory, History.entries_push_eq]
    rfl
  · rw [load_of_lt m hi]
    exact ((m.holdsEntry_loaded e).run hedits).reproduces he

/-- A sum, and then a division by zero. -/
def failedRun : List Action :=
  [.digit "1", .operator "+", .digit "2", .calculate, .operator "/", .digit "0", .calculate]

/-- Two edits of the operand entered last, and one that is refused. -/
def lastEdits : List Action :=
  [.label "previous" (some "two") (.set "red"), .unit "previous" (some "kg"),
    .label "previous" none (.set "mauve")]

/-- The sum is loaded from the error state and renamed before it is calculated again. -/
theorem run_load_calculate_of_failedRun :
    ((new (.ofLimit 0)).run failedRun).failed = true ∧
      ∃ hi : 0 < ((new (.ofLimit 0)).run failedRun).history.entries.length,
        (∀ a ∈ lastEdits, a.EditsPrevious) ∧
          ((((new (.ofLimit 0)).run failedRun).load (0 : Nat)).machine.run lastEdits).Reproduces
            ((new (.ofLimit 0)).run failedRun).history.entries[0] := by
  have hi : 0 < ((new (.ofLimit 0)).run failedRun).history.entries.length := by decide +kernel
  have hedits : ∀ a ∈ lastEdits, a.EditsPrevious := by
    simp only [lastEdits, List.forall_mem_cons]
    exact ⟨rfl, rfl, rfl, fun a ha => absurd ha List.not_mem_nil⟩
  exact ⟨by decide +kernel, hi, hedits, (run_load_calculate 0 failedRun hi hedits).2.2.2.2⟩

end Machine

end Keypad
