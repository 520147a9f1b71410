import Keypad.Proofs.Expression.Conservation
import Keypad.Proofs.Machine.Shown

/-!
# Giving up on a calculation

Calculating, changing the sign and taking a percentage read the buffer, and there may be any text in
it. None of them is refused for that, nor for a row that has no value. They give up instead: nothing
of what was typed is left then, while the history and the variables are as before.

* `survives_any_buffer` — no buffer and no row of checked tokens gets past the three.
-/

namespace Keypad

open Keypad.Number

/-! ## What they can fail for -/

/-- A text that cannot be read is refused for something. -/
theorem Number.exists_fault {text : String} (h : isReadable text = false) :
    ∃ fault, read text = .error fault := by
  unfold isReadable at h
  split at h
  · cases h
  · next hread => exact ⟨_, hread⟩

/-- The operation is left open here, since the kernel would work out a given one. -/
theorem Number.read_bind_toDouble (f : Double → Number) {text : String} {x y : Double}
    (hread : read text = .ok x) (hf : f x = .finite y) :
    (read text >>= fun x => (f x).toDouble) = .ok y := by
  rw [hread]
  exact congrArg toDouble hf

namespace Double

/-- What is divided by a hundred does not leave the range of doubles. -/
theorem exists_div_hundred (x : Double) : ∃ y, x.div Machine.hundred = .finite y := by
  have hnonzero : Machine.hundred.isZero = false := by decide +kernel
  have hone : unitsPerOne ≤ Machine.hundred.units := Nat.le_mul_of_pos_left _ (by decide)
  rw [div, if_neg (Bool.eq_false_iff.1 hnonzero)]
  refine Number.exists_ofRatio_eq_finite _ ?_ largest ?_
  · exact Nat.lt_of_lt_of_le unitsPerOne_pos hone
  · exact Nat.mul_le_mul x.units_le_largest hone

end Double

namespace Machine

open Outcome

/-- From `m` to `m'` what was typed was given up, and nothing that is kept changed. -/
structure GivesUp (m m' : Machine) : Prop where
  inError : m'.InError
  history : m'.history = m.history
  store : m'.store = m.store

/-- The outcome is no refusal. If the action failed, then for a fault that the user is told of, and
the machine gave up; and it is in the error state for no other reason, unless it was before. -/
structure Survives (m : Machine) (o : Outcome Event) : Prop where
  fault : o.fault = none
  failed : ∀ {fault}, .failed fault ∈ o.log → fault.kind.isTold = true ∧ m.GivesUp o.machine
  inError : o.machine.failed = true → m.failed = true ∨ m.GivesUp o.machine

variable {m : Machine}

theorem givesUp_enterError (m : Machine) : m.GivesUp m.enterError :=
  ⟨inError_enterError m, rfl, rfl⟩

/-- What is given up is told by what is kept. -/
theorem GivesUp.of_eq {m' m'' : Machine} (h : m'.GivesUp m'') (hhistory : m'.history = m.history)
    (hstore : m'.store = m.store) : m.GivesUp m'' :=
  ⟨h.inError, h.history.trans hhistory, h.store.trans hstore⟩

/-! ## How actions are put together -/

theorem survives_done {m' : Machine} (h : m'.failed = m.failed) : m.Survives (done m') :=
  ⟨rfl, fun hmem => absurd hmem List.not_mem_nil, fun hm' => .inl (h.symm.trans hm')⟩

/-- An action that fails for what the user is told of survives. -/
theorem survives_fail {fault : Fault} (h : fault.kind.isTold = true) :
    m.Survives (m.fail fault) := by
  refine ⟨rfl, fun hmem => ?_, fun _ => .inr (givesUp_enterError m)⟩
  obtain rfl := Event.failed.inj (List.mem_singleton.1 hmem)
  exact ⟨h, givesUp_enterError m⟩

/-- A record that is not of a failure does not matter. -/
theorem survives_noted {m' : Machine} {record : Event} (h : ∀ fault, record ≠ .failed fault)
    (hm' : m'.failed = m.failed) : m.Survives (noted m' record) :=
  ⟨rfl, fun hmem => absurd (List.mem_singleton.1 hmem).symm (h _), fun h => .inl (hm'.symm.trans h)⟩

/-- Where the action begins does not matter, as long as what is kept is there. -/
theorem Survives.of_eq {m' : Machine} {o : Outcome Event} (h : m'.Survives o)
    (hfailed : m'.failed = m.failed) (hhistory : m'.history = m.history)
    (hstore : m'.store = m.store) : m.Survives o where
  fault := h.fault
  failed hmem := ⟨(h.failed hmem).1, (h.failed hmem).2.of_eq hhistory hstore⟩
  inError herror :=
    (h.inError herror).imp hfailed.symm.trans fun hgives => hgives.of_eq hhistory hstore

/-- A guarded action survives if the action does, and an ignored one does nothing. -/
theorem survives_guarded {name : String} {action : Machine → Outcome Event}
    (h : m.quiet.Survives (action m.quiet)) : m.Survives (m.guarded name action) :=
  guarded_elim (P := m.Survives) (fun _ => survives_noted (fun _ h => by cases h) rfl)
    fun _ => h.of_eq rfl rfl rfl

/-! ## The three actions -/

/-- A text that has no sign to change is told to the user. -/
theorem survives_toggleSign (m : Machine) : m.Survives m.toggleSign := by
  refine survives_guarded ?_
  split
  · next hread => exact survives_fail (isTold_of_read hread)
  · refine survives_done ?_
    split <;> rfl

/-- What the percentage of a buffer comes to is told by reading it. -/
theorem percentage_of_read (hm : m.failed = false) {x y : Double} (hread : read m.buffer = .ok x)
    (hdiv : x.div hundred = .finite y) :
    m.percentage = done { m.quiet with buffer := y.canonicalText } := by
  have hshare : (read m.quiet.buffer >>= fun x => (x.div hundred).toDouble) = .ok y :=
    read_bind_toDouble (·.div hundred) hread hdiv
  rw [percentage, guarded_of_not_failed hm, hshare]

/-- A text that cannot be read has no percentage. -/
theorem percentage_of_error (hm : m.failed = false) {fault : Fault}
    (hread : read m.buffer = .error fault) : m.percentage = m.quiet.fail fault := by
  have hshare : (read m.quiet.buffer >>= fun x => (x.div hundred).toDouble) = .error fault := by
    simp only [quiet, hread, bind, Except.bind]
  rw [percentage, guarded_of_not_failed hm, hshare]

/-- A text that is no number has no sign to change, and leads into the error state. -/
theorem toggleSign_of_error (hm : m.failed = false) {fault : Fault}
    (hread : read m.buffer = .error fault) : m.toggleSign = m.quiet.fail fault := by
  rw [toggleSign, guarded_of_not_failed hm, show read m.quiet.buffer = .error fault from hread]

/-- A percentage fails only for a text that cannot be read. -/
theorem survives_percentage (m : Machine) : m.Survives m.percentage := by
  cases hm : m.failed with
  | true =>
    rw [percentage, guarded_of_failed hm]
    exact survives_noted (fun _ h => by cases h) rfl
  | false =>
    cases hread : read m.buffer with
    | error fault =>
      rw [percentage_of_error hm hread]
      exact (survives_fail (isTold_of_read hread)).of_eq rfl rfl rfl
    | ok x =>
      -- dividing by a hundred never leaves the range, so nothing else can go wrong
      obtain ⟨y, hdiv⟩ := x.exists_div_hundred
      rw [percentage_of_read hm hread hdiv]
      exact survives_done rfl

/-- A row of checked tokens fails for what the user is told of. -/
theorem survives_evaluateCommitted (hts : ∀ t ∈ m.committed, t.Checked) :
    m.Survives m.evaluateCommitted := by
  by_cases hnil : m.committed = []
  · rw [evaluateCommitted_of_nil hnil]
    exact survives_done rfl
  · cases hx : Expression.evaluate m.committed with
    | error fault =>
      have hfault := (Expression.evaluate_isRefusal hts hx).isTold
      rw [evaluateCommitted_of_error hnil hx hfault]
      exact survives_fail hfault
    | ok x =>
      rw [evaluateCommitted_of_ok hnil hx]
      exact survives_noted (fun _ h => by cases h) rfl

/-- A number that is committed is checked on its way. -/
theorem checked_pushed (hts : ∀ t ∈ m.committed, t.Checked) {x : Double}
    (hread : read m.buffer = .ok x) : ∀ t ∈ m.pushed.committed, t.Checked := by
  intro t ht
  rcases List.mem_append.1 ht with ht | ht
  · exact hts t ht
  · rw [List.mem_singleton.1 ht]
    have htyped : Token.operand m.buffer m.naming (some (operandIdent m.nextIdent)) =
        .ok (m.typed (operandIdent m.nextIdent)) := by
      rw [Token.operand, hread]
      rfl
    exact .operand htyped

/-- A calculation survives, whether the number being typed can be committed or not. -/
theorem survives_calculate (hts : ∀ t ∈ m.committed, t.Checked) : m.Survives m.calculate := by
  cases hm : m.failed with
  | true =>
    rw [calculate, guarded_of_failed hm]
    exact survives_noted (fun _ h => by cases h) rfl
  | false =>
    -- a settled number is left out, and one that is being typed is committed or makes it fail
    cases hs : m.settled with
    | true =>
      rw [calculate_of_settled hm hs]
      exact (survives_evaluateCommitted (m := m.quiet) hts).of_eq rfl rfl rfl
    | false =>
      cases hread : read m.buffer with
      | error fault =>
        rw [calculate_of_error hm hs hread]
        exact (survives_fail (m := { m.quiet with nextIdent := m.nextIdent + 1 })
          (isTold_of_read hread)).of_eq rfl rfl rfl
      | ok x =>
        rw [calculate_of_read hm hs hread, andThen_of_done rfl]
        have hrest : m.Survives m.quiet.pushed.evaluateCommitted :=
          (survives_evaluateCommitted (checked_pushed (m := m.quiet) hts hread)).of_eq rfl rfl rfl
        refine ⟨hrest.fault, fun hmem => ?_, hrest.inError⟩
        -- the record of the commit stands in front, and is not one of a failure
        rcases List.mem_append.1 hmem with hmem | hmem
        · cases List.mem_singleton.1 hmem
        · exact hrest.failed hmem

/-- Whatever the buffer holds and the flags say, none of the three actions is refused as long as the
row consists of checked tokens, and what they fail for is told. A buffer that cannot be read makes
them give up, unless `calculate` has no need of it. Of one that can be read, the percentage can be
read as well. -/
theorem survives_any_buffer (hts : ∀ t ∈ m.committed, t.Checked) :
    (m.Survives m.calculate ∧ m.Survives m.toggleSign ∧ m.Survives m.percentage) ∧
      (m.failed = false →
        (isReadable m.buffer = false →
          m.GivesUp m.toggleSign.machine ∧ m.GivesUp m.percentage.machine ∧
            (m.settled = false → m.GivesUp m.calculate.machine)) ∧
        ∀ x, read m.buffer = .ok x →
          ∃ y, x.div hundred = .finite y ∧ m.percentage.machine.failed = false ∧
            read m.percentage.machine.buffer = .ok y.unsignedZero) := by
  refine ⟨⟨survives_calculate hts, survives_toggleSign m, survives_percentage m⟩, fun hm => ?_⟩
  refine ⟨fun hunreadable => ?_, fun x hread => ?_⟩
  · obtain ⟨fault, hread⟩ := exists_fault hunreadable
    rw [toggleSign_of_error hm hread, percentage_of_error hm hread]
    have hgives : m.GivesUp m.quiet.enterError := (givesUp_enterError m.quiet).of_eq rfl rfl
    refine ⟨hgives, hgives, fun hs => ?_⟩
    rw [calculate_of_error hm hs hread]
    exact (givesUp_enterError _).of_eq rfl rfl
  · obtain ⟨y, hdiv⟩ := x.exists_div_hundred
    rw [percentage_of_read hm hread hdiv]
    exact ⟨y, hdiv, hm, y.read_canonicalText⟩

/-- The machine with `1 + (` committed and a text in the buffer. -/
def halfTyped (text : String) : Machine :=
  { new (.ofLimit 0) with
    buffer := text,
    committed :=
      [Token.plain .operand "1" .blank none, Token.operator .add, Token.grouping .opening] }

/-- Behind an exponent the point leaves no number; the thousand is calculated with, although the row
has no partner for its mark, and a hundredth of it is ten. -/
theorem survives_any_buffer_of_halfTyped :
    (∀ text, ∀ t ∈ (halfTyped text).committed, t.Checked) ∧
      isReadable (halfTyped "1e-05.").buffer = false ∧
      (halfTyped "1e-05.").GivesUp (halfTyped "1e-05.").calculate.machine ∧
      (halfTyped "1,000").Survives (halfTyped "1,000").calculate ∧
      (halfTyped "1,000").calculate.machine.buffer = "1001" ∧
      isReadable (halfTyped "1,000").buffer = true ∧
      isReadable (halfTyped "1,000").percentage.machine.buffer = true ∧
      (halfTyped "1,000").percentage.machine.buffer = "10" := by
  have hts (text : String) : ∀ t ∈ (halfTyped text).committed, t.Checked := by
    have hone : Token.operand "1" .blank none = .ok (Token.plain .operand "1" .blank none) := by
      decide +kernel
    simp only [halfTyped, List.forall_mem_cons]
    exact ⟨.operand hone, .operator _, .grouping _, fun t ht => absurd ht List.not_mem_nil⟩
  have hspoiled : isReadable (halfTyped "1e-05.").buffer = false := by decide +kernel
  have hthousand : isReadable (halfTyped "1,000").buffer = true := by decide +kernel
  obtain ⟨-, hgives⟩ := survives_any_buffer (hts "1e-05.")
  obtain ⟨⟨hcalculate, -, -⟩, hshare⟩ := survives_any_buffer (hts "1,000")
  obtain ⟨x, hread⟩ := isReadable_iff.1 hthousand
  obtain ⟨y, -, -, hread'⟩ := (hshare rfl).2 x hread
  exact ⟨hts, hspoiled, ((hgives rfl).1 hspoiled).2.2 rfl, hcalculate, by decide +kernel, hthousand,
    isReadable_iff.2 ⟨_, hread'⟩, by decide +kernel⟩

end Machine

end Keypad
