import Keypad.Machine.View
import Keypad.Proofs.Machine.EditedText
import Keypad.Proofs.Machine.Shown

/-!
# When the machine can be read

The buffer is edited as text, so a key can leave a text there that is no number. `Action.Spoils`
says for each action and machine whether it does that, from the text in the buffer alone. Three
actions can: a digit, the point and the sign key. A run of proper requests is carried out without a
fault, and every machine on its way can be shown, exactly if none of its actions spoils the buffer.

* `perform_isSmooth_iff` — one action.
* `run_canBeShown_iff`   — a run.
-/

namespace Keypad

open Keypad.Number

namespace Machine

open Outcome

/-- The buffer holds a number, unless the machine is in the error state. -/
def Legible (m : Machine) : Prop := m.failed = false → isReadable m.buffer = true

/-- The machine can be shown. -/
structure CanBeShown (m : Machine) : Prop where
  expression : ∃ ts, m.expression = .ok ts
  legible : m.Legible

/-- The key would leave no number in the buffer. -/
def KeySpoils (m : Machine) (key : Char) : Prop :=
  m.failed = false ∧ m.settled = false ∧ Buffer.KeySpoils m.buffer key

/-- The sign key would leave no number in the buffer. -/
def SignSpoils (m : Machine) : Prop :=
  m.failed = false ∧ (∃ x, read m.buffer = .ok x ∧ x.isZero = false) ∧ Buffer.SignSpoils m.buffer

end Machine

namespace Action

/-- A proper request: what it names is there to be named, and its number is one. -/
def IsProper (m : Machine) : Action → Prop
  | .digit key => ∃ c, Machine.readKey key = .ok c
  | .parenthesis mark => ∃ k, Machine.readMark mark = .ok k
  | .operator spelling => ∃ op, Operator.read spelling = .ok op
  | .label target _ color => (∃ t, Target.read target = .ok t) ∧ ∃ c, color.readColor = .ok c
  | .unit target _ => ∃ t, Target.read target = .ok t
  | .save name value _ color =>
    name ≠ "" ∧ isReadable value = true ∧ ∃ c, Color.readOption color = .ok c
  | .retrieve name => m.store.contains name = true
  | .retrieveSaved value naming => m.Keeps value ∧ ∃ n, naming.read = .ok n
  | .point | .calculate | .clear | .delete | .toggleSign | .percentage | .load _ | .forget _ => True

/-- The action would leave no number in the buffer. -/
def Spoils (m : Machine) : Action → Prop
  | .digit key => ∃ c, Machine.readKey key = .ok c ∧ m.KeySpoils c
  | .point => m.KeySpoils '.'
  | .toggleSign => m.SignSpoils
  | _ => False

end Action

namespace Machine

open Outcome

/-- Not refused, and with a number in the buffer. -/
structure Outcome.IsSmooth (o : Outcome Event) : Prop where
  fault : o.fault = none
  legible : o.machine.Legible

variable {m : Machine}

/-! ## How actions are put together -/

/-- An action that ran to its end is smooth if it left a number. -/
theorem isSmooth_done_iff : (done m : Outcome Event).IsSmooth ↔ m.Legible :=
  ⟨fun h => h.legible, fun h => ⟨rfl, h⟩⟩

/-- Arguments that can be read do not matter. -/
theorem checking_isSmooth_iff {α : Type} {argument : Except Fault α} {a : α}
    (ha : argument = .ok a) {action : α → Outcome Event} :
    (m.checking argument action).IsSmooth ↔ (action a).IsSmooth := by
  rw [ha]
  rfl

/-- In the error state nothing is done that could spoil the buffer. -/
theorem guarded_isSmooth_iff {name : String} {action : Machine → Outcome Event} :
    (m.guarded name action).IsSmooth ↔ (m.failed = false → (action m.quiet).IsSmooth) := by
  cases hm : m.failed with
  | true =>
    rw [guarded_of_failed hm]
    refine iff_of_true ⟨rfl, fun h => ?_⟩ fun h => ?_
    · cases hm.symm.trans h
    · cases h
  | false =>
    rw [guarded_of_not_failed hm]
    exact ⟨fun h _ => h, fun h => h rfl⟩

/-- A second part decides if the first one is not refused. -/
theorem andThen_isSmooth {o : Outcome Event} (ho : o.fault = none)
    {next : Machine → Outcome Event} (h : (next o.machine).IsSmooth) :
    (o.andThen next).IsSmooth := by
  rw [andThen_of_done ho]
  exact ⟨h.fault, h.legible⟩

/-! ## The actions one by one -/

/-- Not refused, and the text in the buffer is the same. -/
structure KeepsText (m : Machine) (o : Outcome Event) : Prop where
  fault : o.fault = none
  buffer : o.machine.buffer = m.buffer
  failed : o.machine.failed = m.failed

/-- If the text is the same, it is still a number. -/
theorem KeepsText.isSmooth {o : Outcome Event} (h : m.KeepsText o) (hm : m.Legible) :
    o.IsSmooth := by
  refine ⟨h.fault, fun hfailed => ?_⟩
  rw [h.buffer]
  exact hm (h.failed.symm.trans hfailed)

theorem keepsText_done (m : Machine) : m.KeepsText (done m) := ⟨rfl, rfl, rfl⟩

/-- Two parts that keep the text keep it together. -/
theorem KeepsText.andThen {o : Outcome Event} {next : Machine → Outcome Event}
    (h : m.KeepsText o) (hnext : o.machine.KeepsText (next o.machine)) :
    m.KeepsText (o.andThen next) := by
  rw [andThen_of_done h.fault]
  exact ⟨hnext.fault, hnext.buffer.trans h.buffer, hnext.failed.trans h.failed⟩

/-- A number that can be read is committed, and stays in the buffer. -/
theorem commit_keepsText (h : isReadable m.buffer = true) : m.KeepsText m.commit := by
  obtain ⟨x, hx⟩ := isReadable_iff.1 h
  rw [commit_of_read hx]
  exact ⟨rfl, rfl, rfl⟩

theorem appendOperator_keepsText (m : Machine) (op : Operator) :
    m.KeepsText (done (m.appendOperator op)) := ⟨rfl, rfl, rfl⟩

/-- Committing keeps the text, whether there is something to commit or not. -/
theorem commitTyped_keepsText (h : isReadable m.buffer = true) : m.KeepsText m.commitTyped := by
  unfold commitTyped
  split
  · exact keepsText_done m
  · exact commit_keepsText h

/-- An operator keeps the text. -/
theorem typeOperator_keepsText (h : isReadable m.buffer = true) (op : Operator) :
    m.KeepsText (m.typeOperator op) := by
  unfold typeOperator
  split
  · exact (commit_keepsText h).andThen (appendOperator_keepsText _ op)
  · split
    · exact ⟨rfl, rfl, rfl⟩
    · exact appendOperator_keepsText m op

/-- A mark keeps the text. -/
theorem typeMark_keepsText (h : isReadable m.buffer = true) (mark : Mark) :
    m.KeepsText (m.typeMark mark) := by
  unfold typeMark
  split
  · refine KeepsText.andThen ?_ ?_
    · split
      · exact typeOperator_keepsText h _
      · exact keepsText_done m
    · exact ⟨rfl, rfl, rfl⟩
  · refine (commitTyped_keepsText h).andThen ?_
    exact ⟨rfl, rfl, rfl⟩

/-- Naming keeps the text, too. -/
theorem editNaming_keepsText (target : Target) (change : Naming → Naming) (missing : Event) :
    m.KeepsText (m.editNaming target change missing) := by
  cases target with
  | current =>
    simp only [editNaming, editBuffer]
    split
    · exact ⟨rfl, rfl, rfl⟩
    · exact ⟨rfl, rfl, rfl⟩
  | previous =>
    simp only [editNaming, editPrevious]
    split
    · exact ⟨rfl, rfl, rfl⟩
    · exact ⟨rfl, rfl, rfl⟩

/-- A result is a number, and in the error state there need not be one. -/
theorem evaluateCommitted_isSmooth (hm : m.Legible) (hknown : m.committed.Known) :
    m.evaluateCommitted.IsSmooth := by
  refine ⟨evaluateCommitted_fault hknown, ?_⟩
  unfold evaluateCommitted
  split
  · exact hm
  · split
    · next hx =>
      rw [if_pos (Expression.isTold_of_evaluate hknown hx)]
      exact fun h => by cases h
    · exact fun _ => isReadable_resultText _

/-- A calculation commits first, and is not refused for what it evaluates. -/
theorem calculate_isSmooth (hm : m.Legible) (hknown : m.KnownRows) : m.calculate.IsSmooth := by
  refine guarded_isSmooth_iff.2 fun hfailed => ?_
  have hkeeps := commitTyped_keepsText (m := m.quiet) (hm hfailed)
  have hrows : m.quiet.commitTyped.machine.KnownRows :=
    (commitTyped_moves (m := m.quiet) (p := fun _ => False) hfailed).keep
      (fun _ _ => Move.knownRows) ⟨hknown.committed, hknown.history⟩
  split
  · next h =>
    have hfault := hkeeps.fault
    rw [h] at hfault
    cases hfault
  · refine andThen_isSmooth hkeeps.fault ?_
    exact evaluateCommitted_isSmooth (hkeeps.isSmooth hm).legible hrows.committed

/-- A percentage is a number. -/
theorem percentage_isSmooth : m.percentage.IsSmooth := by
  refine guarded_isSmooth_iff.2 fun _ => ?_
  split
  · exact ⟨rfl, fun h => by cases h⟩
  · next x _ =>
    refine ⟨rfl, fun _ => ?_⟩
    exact isReadable_iff.2 ⟨_, x.read_canonicalText⟩

/-- What is left when a key is taken back is a number. -/
theorem isReadable_erase (text : String) : isReadable (Buffer.erase text) = true := by
  unfold Buffer.erase
  split
  · next h => exact h
  · decide +kernel

/-- Taking a key back is smooth. -/
theorem delete_isSmooth (hm : m.Legible) : m.delete.IsSmooth := by
  refine guarded_isSmooth_iff.2 fun _ => isSmooth_done_iff.2 ?_
  split
  · exact hm
  · intro _
    dsimp only
    exact isReadable_erase _

/-- A past result is a number. -/
theorem load_isSmooth (hm : m.Legible) (hrecall : m.Recallable) (index : Int) :
    (m.load index).IsSmooth := by
  unfold load
  split
  · exact ⟨rfl, hm⟩
  · split
    · exact ⟨rfl, hm⟩
    · next entry hentry => exact ⟨rfl, fun _ => hrecall.results _ (mem_entries_of_get? hentry)⟩

/-- A number that was kept is one. -/
theorem typeKept_isSmooth {value : String} (h : isReadable value = true) (naming : Naming) :
    (m.typeKept value naming).IsSmooth :=
  guarded_isSmooth_iff.2 fun _ => isSmooth_done_iff.2 fun _ => h

/-- A key spoils the buffer exactly if it is said to. -/
theorem typeKey_isSmooth_iff (hm : m.Legible) {name : String} {key : Char}
    (hkey : Buffer.isKey key = true) :
    (m.guarded name fun m => done (m.typeKey key)).IsSmooth ↔ ¬m.KeySpoils key := by
  rw [guarded_isSmooth_iff, KeySpoils, not_and]
  refine forall_congr' fun hfailed => ?_
  obtain ⟨naming, intermediate, heq⟩ := m.quiet.exists_typeKey_eq key
  rw [isSmooth_done_iff, heq]
  have hlegible : Legible { m.quiet with
      buffer := m.quiet.keyedText key, naming := naming, settled := false,
      intermediate := intermediate } ↔ isReadable (m.quiet.keyedText key) = true :=
    ⟨fun h => h hfailed, fun h _ => h⟩
  rw [hlegible, keyedText]
  cases hs : m.settled with
  | true =>
    -- the key starts a number, whatever the buffer held
    rw [if_pos (show m.quiet.settled = true from hs)]
    exact iff_of_true (Buffer.isReadable_first hkey) (by simp)
  | false =>
    rw [if_neg (Bool.eq_false_iff.1 (show m.quiet.settled = false from hs)),
      show m.quiet.buffer = m.buffer from rfl, Buffer.isReadable_type_iff (hm hfailed) hkey]
    simp only [true_and]

/-- The sign key is smooth unless the sign would spoil the text. -/
theorem toggleSign_isSmooth_iff (hm : m.Legible) : m.toggleSign.IsSmooth ↔ ¬m.SignSpoils := by
  rw [toggleSign, guarded_isSmooth_iff, SignSpoils, not_and]
  refine forall_congr' fun hfailed => ?_
  obtain ⟨x, hx⟩ := isReadable_iff.1 (hm hfailed)
  rw [show read m.quiet.buffer = .ok x from hx]
  simp only [hx, Except.ok.injEq, exists_eq_left', isSmooth_done_iff]
  -- the sign of a zero is left alone
  cases hzero : x.isZero with
  | true =>
    simp only [if_true, Bool.true_eq_false, false_and, not_false_eq_true, iff_true]
    exact hm
  | false =>
    simp only [Bool.false_eq_true, if_false, true_and]
    rw [← Buffer.isReadable_toggleSign_iff (hm hfailed)]
    exact ⟨fun h => h hfailed, fun h _ => h⟩

/-! ## Any action -/

theorem isReadable_start : isReadable Buffer.start = true := by decide +kernel

/-- What holds of every machine that has been legible so far. -/
structure Steady (m : Machine) : Prop where
  recallable : m.Recallable
  known : m.KnownRows
  legible : m.Legible
  settled : m.failed = true → m.settled = true

/-- A new machine is steady. -/
theorem steady_new (limit : Nat) : (new (.ofLimit limit)).Steady where
  recallable := recallable_new limit
  known := knownRows_new limit
  legible _ := isReadable_start
  settled h := by cases h

/-- A machine that is legible can be shown: in the error state there is no number to show. -/
theorem Steady.canBeShown (h : m.Steady) : m.CanBeShown := by
  refine ⟨?_, h.legible⟩
  unfold expression
  split
  · next htyped =>
    simp only [Bool.and_eq_true, Bool.not_eq_true'] at htyped
    have hfailed : m.failed = false := by
      refine Bool.eq_false_iff.2 fun hfailed => ?_
      rw [h.settled hfailed] at htyped
      cases htyped.1
    obtain ⟨x, hx⟩ := isReadable_iff.1 (h.legible hfailed)
    rw [Token.operand, hx]
    exact ⟨_, rfl⟩
  · exact ⟨_, rfl⟩

/-- Going into the error state settles the buffer, and nothing unsettles it there. -/
theorem Move.settled_of_failed {p : String → Prop} {m' : Machine} (h : Move p m m')
    (hm : m.failed = true → m.settled = true) : m'.failed = true → m'.settled = true := by
  intro hm'
  rcases h.of_failed hm' with rfl | ⟨hfailed, notice, store, rfl⟩
  · rfl
  · exact hm hfailed

/-- A proper request to save is not refused. -/
theorem exists_save_of_isProper {name value : String} {unit color : Option String}
    (hname : name ≠ "") (hvalue : isReadable value = true)
    (hcolor : ∃ c, Color.readOption color = .ok c) :
    ∃ vs, m.store.save name value unit color = .ok vs := by
  obtain ⟨c, hc⟩ := hcolor
  exact ⟨_, Variables.saveAt_eq_ok_iff.2 ⟨hname, hvalue, c, hc, rfl⟩⟩

/-- A variable that is kept is found. -/
theorem exists_findVariable {name : String} (h : m.store.contains name = true) :
    ∃ v, m.findVariable name = .ok v := by
  obtain ⟨v, hv, hname⟩ := List.any_eq_true.1 h
  cases hfind : m.store.find? name with
  | none => exact absurd hname (List.find?_eq_none.1 hfind v hv)
  | some v' => exact ⟨v', by rw [findVariable, hfind]⟩

/-- A proper request is refused, or leaves no number in the buffer, exactly if it spoils it. -/
theorem perform_isSmooth_iff (hm : m.Steady) {action : Action} (h : action.IsProper m) :
    (m.perform action).IsSmooth ↔ ¬action.Spoils m := by
  cases action with
  | digit key =>
    obtain ⟨c, hc⟩ := h
    simp only [perform, pressDigit, Action.Spoils, hc, Except.ok.injEq, exists_eq_left']
    rw [checking_isSmooth_iff rfl]
    exact typeKey_isSmooth_iff hm.legible (isKey_of_readKey hc)
  | point => exact typeKey_isSmooth_iff hm.legible rfl
  -- besides the keys of a number only the sign key can spoil the text; whatever else is proper is
  -- smooth
  | toggleSign => exact toggleSign_isSmooth_iff hm.legible
  | parenthesis mark =>
    obtain ⟨k, hk⟩ := h
    refine iff_of_true ((checking_isSmooth_iff hk).2 (guarded_isSmooth_iff.2 fun hfailed => ?_)) id
    exact (typeMark_keepsText (m := m.quiet) (hm.legible hfailed) k).isSmooth hm.legible
  | operator spelling =>
    obtain ⟨op, hop⟩ := h
    refine iff_of_true ((checking_isSmooth_iff hop).2 (guarded_isSmooth_iff.2 fun hfailed => ?_)) id
    exact (typeOperator_keepsText (m := m.quiet) (hm.legible hfailed) op).isSmooth hm.legible
  | calculate => exact iff_of_true (calculate_isSmooth hm.legible hm.known) id
  | clear => exact iff_of_true ⟨rfl, fun _ => isReadable_start⟩ id
  | delete => exact iff_of_true (delete_isSmooth hm.legible) id
  | percentage => exact iff_of_true percentage_isSmooth id
  | label target text color =>
    obtain ⟨⟨t, ht⟩, c, hc⟩ := h
    refine iff_of_true ((checking_isSmooth_iff ht).2 ((checking_isSmooth_iff hc).2
      (guarded_isSmooth_iff.2 fun _ => ?_))) id
    exact (editNaming_keepsText t _ _).isSmooth hm.legible
  | unit target text =>
    obtain ⟨t, ht⟩ := h
    refine iff_of_true ((checking_isSmooth_iff ht).2 (guarded_isSmooth_iff.2 fun _ => ?_)) id
    exact (editNaming_keepsText t _ _).isSmooth hm.legible
  | load index => exact iff_of_true (load_isSmooth hm.legible hm.recallable index) id
  | save name value unit color =>
    obtain ⟨vs, hvs⟩ : ∃ vs, m.store.save name value unit color = .ok vs :=
      exists_save_of_isProper h.1 h.2.1 h.2.2
    exact iff_of_true ((checking_isSmooth_iff hvs).2 ⟨rfl, hm.legible⟩) id
  | forget name => exact iff_of_true ⟨rfl, hm.legible⟩ id
  | retrieve name =>
    obtain ⟨v, hv⟩ := exists_findVariable h
    refine iff_of_true ((checking_isSmooth_iff hv).2 (typeKept_isSmooth ?_ _)) id
    exact hm.recallable.store v (mem_saved_of_findVariable hv)
  | retrieveSaved value naming =>
    obtain ⟨hvalue, n, hn⟩ := h
    refine iff_of_true ((checking_isSmooth_iff hn).2 (typeKept_isSmooth ?_ _)) id
    exact hvalue.isReadable hm.recallable

/-- A proper request hands back nothing but what is kept. -/
theorem handsBack_of_isProper {action : Action} (h : action.IsProper m) :
    action.HandsBack (fun _ => False) m := by
  cases action with
  | retrieveSaved value naming => exact .inr h.1
  | _ => trivial

/-- A smooth action leaves the machine steady. -/
theorem Steady.perform (hm : m.Steady) {action : Action} (h : action.IsProper m)
    (hsmooth : (m.perform action).machine.Legible) : (m.perform action).machine.Steady where
  recallable :=
    (perform_moves (handsBack_of_isProper h)).keep (fun _ _ => Move.recallable) hm.recallable
  known := (perform_moves (handsBack_of_isProper h)).keep (fun _ _ => Move.knownRows) hm.known
  legible := hsmooth
  settled :=
    (perform_moves (handsBack_of_isProper h)).keep
      (P := fun m => m.failed = true → m.settled = true) (fun _ _ => Move.settled_of_failed)
      hm.settled

/-! ## Runs -/

/-- Along a run of proper requests all is smooth exactly if nothing spoils the buffer. -/
theorem Steady.along_iff (hm : m.Steady) {actions : List Action}
    (h : Along (fun m a => a.IsProper m) m actions) :
    Along (fun m a => (m.perform a).fault = none ∧ (m.perform a).machine.CanBeShown) m actions ↔
      Along (fun m a => ¬a.Spoils m) m actions := by
  induction actions generalizing m with
  | nil => exact Iff.rfl
  | cons action actions ih =>
    have hstep := perform_isSmooth_iff hm h.1
    constructor
    · rintro ⟨⟨hfault, hshown⟩, hrest⟩
      refine ⟨hstep.1 ⟨hfault, hshown.legible⟩, ?_⟩
      exact (ih (hm.perform h.1 hshown.legible) h.2).1 hrest
    · rintro ⟨hspoils, hrest⟩
      have hsmooth := hstep.2 hspoils
      have hnext := hm.perform h.1 hsmooth.legible
      exact ⟨⟨hsmooth.fault, hnext.canBeShown⟩, (ih hnext h.2).2 hrest⟩

/-- A run of proper requests from a new machine is carried out without a fault, with every machine
on its way to be shown, exactly if no action in it spoils the buffer. -/
theorem run_canBeShown_iff (limit : Nat) {actions : List Action}
    (h : Along (fun m a => a.IsProper m) (new (.ofLimit limit)) actions) :
    ((new (.ofLimit limit)).CanBeShown ∧
      Along (fun m a => (m.perform a).fault = none ∧ (m.perform a).machine.CanBeShown)
        (new (.ofLimit limit)) actions) ↔
    Along (fun m a => ¬a.Spoils m) (new (.ofLimit limit)) actions := by
  rw [and_iff_right (steady_new limit).canBeShown]
  exact (steady_new limit).along_iff h

/-- A thousandth, in percent. -/
def percentRun : List Action :=
  [.digit "0", .digit ".", .digit "0", .digit "0", .digit "1", .percentage]

/-- A thousandth in percent is written with an exponent, and a point cannot stand behind that. -/
theorem run_canBeShown_iff_of_percentRun :
    Along (fun m a => a.IsProper m) (new (.ofLimit 0)) (percentRun ++ [.point]) ∧
      ¬((new (.ofLimit 0)).CanBeShown ∧
        Along (fun m a => (m.perform a).fault = none ∧ (m.perform a).machine.CanBeShown)
          (new (.ofLimit 0)) (percentRun ++ [.point])) := by
  have hproper : Along (fun m a => a.IsProper m) (new (.ofLimit 0)) (percentRun ++ [.point]) :=
    ⟨⟨_, rfl⟩, ⟨_, rfl⟩, ⟨_, rfl⟩, ⟨_, rfl⟩, ⟨_, rfl⟩, trivial, trivial, trivial⟩
  refine ⟨hproper, fun hshown => ?_⟩
  have hpoint := (along_append.1 ((run_canBeShown_iff 0 hproper).1 hshown)).2.1
  have hbuffer : ((new (.ofLimit 0)).run percentRun).buffer = "1e-05" := by decide +kernel
  refine hpoint ⟨by decide +kernel, by decide +kernel, ?_⟩
  rw [hbuffer]
  exact ⟨by decide, .inl (by decide)⟩

end Machine

end Keypad
