import Keypad.Console.Session
import Keypad.Proofs.Machine.Log

/-!
# What a refusal leaves

An action that is refused has changed nothing that matters, and the user is told of the fault. Its
arguments are checked before it begins, and behind these checks only a commit can be refused: that
happens before the row grows, but an ident is used up. An action put together from two, an opening
mark behind a number or the `store` of the console, can be refused in its first part only.

One refusal is different. A calculation of a row with an operator that is none ends what is going
on, with the number in the buffer already committed.

* `perform_spares`  — a refused action of the machine, other than a calculation.
* `carryOut_spares` — a refused command of the console.
-/

namespace Keypad

/-! ## What arguments are refused for -/

/-- Either there is a result, or the user is told why there is none. -/
def Tells {α : Type} (x : Except Fault α) : Prop :=
  ∀ fault, x = .error fault → fault.kind.isTold = true

namespace Tells

variable {α β : Type} {x : Except Fault α}

theorem ok (a : α) : Tells (.ok a) := fun _ h => by cases h

/-- A fault that is told is told. -/
theorem error {fault : Fault} (h : fault.kind.isTold = true) :
    Tells (.error fault : Except Fault α) := by
  intro fault' h'
  rwa [← Except.error.inj h']

theorem map (h : Tells x) (f : α → β) : Tells (x.map f) := fun fault hx => h fault (of_map_error hx)

/-- A sequence tells if both of its parts do. -/
theorem bind (h : Tells x) {f : α → Except Fault β} (hf : ∀ a, Tells (f a)) : Tells (x >>= f) := by
  intro fault hx
  rcases of_bind_error hx with hx | ⟨a, -, ha⟩
  · exact h fault hx
  · exact hf a fault ha

/-! Each of the texts of a request is looked up in a table, or read as a number. -/

/-- A text that is no key is told. -/
theorem readKey (text : String) : Tells (Machine.readKey text) := by
  unfold Machine.readKey
  split
  · split
    · exact ok _
    · exact error rfl
  · exact error rfl

/-- And one that is no mark. -/
theorem readMark (text : String) : Tells (Machine.readMark text) := by
  unfold Machine.readMark
  split
  · exact ok _
  · exact error rfl

/-- And one that is no operator. -/
theorem readOperator (text : String) : Tells (Operator.read text) := by
  unfold Operator.read
  split
  · exact ok _
  · exact error rfl

/-- And one that is no target. -/
theorem readTarget (text : String) : Tells (Target.read text) := by
  unfold Target.read
  split
  · exact ok _
  · exact error rfl

/-- And one that is no colour. -/
theorem readColor (text : String) : Tells (Color.read text) := by
  unfold Color.read
  split
  · exact ok _
  · exact error rfl

/-- A colour that is not asked for is not looked up. -/
theorem readOption (text : Option String) : Tells (Color.readOption text) := by
  cases text with
  | none => exact ok _
  | some text => exact (readColor text).map _

/-- And neither is one that is to be kept or taken away. -/
theorem readEdit (edit : Edit String) : Tells edit.readColor := by
  cases edit with
  | keep => exact ok _
  | clear => exact ok _
  | set text => exact (readColor text).map _

/-- A variable that is not there is told. -/
theorem findVariable (m : Machine) (label : String) : Tells (m.findVariable label) := by
  unfold Machine.findVariable
  split
  · exact ok _
  · exact error rfl

/-- A variable is refused for its name, its number or its colour, in this order. -/
theorem save (vs : Variables) (label value : String) (unit color : Option String) :
    Tells (vs.save label value unit color) := by
  unfold Variables.save Variables.saveAt
  split
  · exact error rfl
  · refine bind (fun _ => Number.isTold_of_read) fun _ => ?_
    exact (readOption color).bind fun _ => ok _

end Tells

namespace Machine

open Outcome

/-- From `m` to `m'` the notice may have been taken down and an ident used up, and nothing else is
different. -/
structure Spares (m m' : Machine) : Prop where
  same : m' = { m with notice := m'.notice, nextIdent := m'.nextIdent }
  notice : m'.notice = m.notice ∨ m'.notice = none
  nextIdent : m'.nextIdent = m.nextIdent ∨ m'.nextIdent = m.nextIdent + 1

/-- If the outcome is a refusal, the user is told of it and the machine is spared. -/
def RefusalSpares {ε : Type} (m : Machine) (o : Outcome ε) : Prop :=
  ∀ fault, o.fault = some fault → fault.kind.isTold = true ∧ m.Spares o.machine

variable {ε : Type} {m : Machine}

theorem Spares.refl (m : Machine) : m.Spares m := ⟨rfl, .inl rfl, .inl rfl⟩

/-- The notice may have been taken down before. -/
theorem Spares.of_quiet {m' : Machine} (h : m.quiet.Spares m') : m.Spares m' where
  same := h.same
  notice := .inr (h.notice.elim id id)
  nextIdent := h.nextIdent

/-! ## How actions are put together -/

/-- Two parts that are not refused are not refused together. -/
theorem andThen_fault {o : Outcome ε} {next : Machine → Outcome ε} (ho : o.fault = none)
    (h : ∀ m, (next m).fault = none) : (o.andThen next).fault = none := by
  rw [andThen_of_done ho]
  exact h _

namespace RefusalSpares

/-- An action that is not refused spares the machine. -/
theorem of_done {o : Outcome ε} (h : o.fault = none) : m.RefusalSpares o := by
  intro fault hfault
  cases h.symm.trans hfault

/-- And so does one that is refused before it begins. -/
theorem of_refused (m : Machine) {fault : Fault} (h : fault.kind.isTold = true) :
    m.RefusalSpares (refused m fault : Outcome ε) := by
  intro fault' h'
  obtain rfl := Option.some.inj h'
  exact ⟨h, .refl m⟩

/-- A second part that is never refused changes nothing about it. -/
theorem andThen {o : Outcome ε} {next : Machine → Outcome ε} (h : m.RefusalSpares o)
    (hnext : ∀ m, (next m).fault = none) : m.RefusalSpares (o.andThen next) := by
  cases ho : o.fault with
  | some fault => rwa [andThen_of_fault ho]
  | none => exact of_done (andThen_fault ho hnext)

/-- Arguments are read before anything is changed. -/
theorem checking {α : Type} {argument : Except Fault α} {action : α → Outcome Event}
    (hargument : Tells argument) (h : ∀ a, m.RefusalSpares (action a)) :
    m.RefusalSpares (m.checking argument action) := by
  unfold Machine.checking
  cases argument with
  | error fault => exact of_refused m (hargument fault rfl)
  | ok a => exact h a

/-- A guarded action spares the machine if the action does. -/
theorem guarded {name : String} {action : Machine → Outcome Event}
    (h : ∀ m : Machine, m.RefusalSpares (action m)) : m.RefusalSpares (m.guarded name action) :=
  guarded_elim (P := fun o => m.RefusalSpares o) (fun _ => of_done rfl)
    fun _ fault hfault => (h m.quiet fault hfault).imp_right Spares.of_quiet

end RefusalSpares

/-! ## Actions that are never refused -/

/-- A change of sign leads into the error state, or is done. -/
theorem toggleSign_fault (m : Machine) : m.toggleSign.fault = none := by
  refine guarded_fault fun m => ?_
  split <;> rfl

/-- And so does a percentage. -/
theorem percentage_fault (m : Machine) : m.percentage.fault = none := by
  refine guarded_fault fun m => ?_
  split <;> rfl

/-- Naming is never refused. -/
theorem editNaming_fault (m : Machine) (target : Target) (change : Naming → Naming)
    (missing : Event) : (m.editNaming target change missing).fault = none := by
  cases target with
  | current =>
    simp only [editNaming, editBuffer]
    split <;> rfl
  | previous =>
    simp only [editNaming, editPrevious]
    split <;> rfl

/-- Nor is a load: without an entry nothing is done. -/
theorem load_fault (m : Machine) (index : Int) : (m.load index).fault = none := by
  unfold load
  split
  · rfl
  · split <;> rfl

theorem typeKept_fault (m : Machine) (value : String) (naming : Naming) :
    (m.typeKept value naming).fault = none := guarded_fault fun _ => rfl

/-! ## Actions that are refused -/

/-- A refused commit uses up its ident. -/
theorem commit_spares (m : Machine) : m.RefusalSpares m.commit := by
  cases hread : Number.read m.buffer with
  | ok x =>
    rw [commit_of_read hread]
    exact .of_done rfl
  | error fault =>
    rw [commit_of_error hread]
    intro fault' hfault
    obtain rfl := Option.some.inj hfault
    exact ⟨Number.isTold_of_read hread, rfl, .inl rfl, .inr rfl⟩

/-- And so does one that may be left out. -/
theorem commitTyped_spares (m : Machine) : m.RefusalSpares m.commitTyped := by
  unfold commitTyped
  split
  · exact .of_done rfl
  · exact commit_spares m

/-- An operator is refused with the commit in front of it, before it is put into the row. -/
theorem typeOperator_spares (m : Machine) (op : Operator) :
    m.RefusalSpares (m.typeOperator op) := by
  unfold typeOperator
  split
  · exact (commit_spares m).andThen fun _ => rfl
  · split <;> exact .of_done rfl

/-- And so is a mark, with the multiplication or the commit in front of it. -/
theorem typeMark_spares (m : Machine) (mark : Mark) : m.RefusalSpares (m.typeMark mark) := by
  cases mark with
  | opening =>
    refine RefusalSpares.andThen ?_ fun _ => rfl
    split
    · exact typeOperator_spares m _
    · exact .of_done rfl
  | closing => exact (commitTyped_spares m).andThen fun _ => rfl

/-- A refused action of the machine spares it, unless it is a calculation. -/
theorem perform_spares (m : Machine) {action : Action} (h : action ≠ .calculate) :
    m.RefusalSpares (m.perform action) := by
  cases action with
  | calculate => exact absurd rfl h
  | digit key => exact .checking (.readKey key) fun c => .of_done (guarded_fault fun _ => rfl)
  | point => exact .of_done (guarded_fault fun _ => rfl)
  | parenthesis mark =>
    exact .checking (.readMark mark) fun mark => .guarded fun m => typeMark_spares m mark
  | operator spelling =>
    exact .checking (.readOperator spelling) fun op => .guarded fun m => typeOperator_spares m op
  | clear => exact .of_done rfl
  | delete => exact .of_done (guarded_fault fun _ => rfl)
  | toggleSign => exact .of_done (toggleSign_fault m)
  | percentage => exact .of_done (percentage_fault m)
  | label target text color =>
    exact .checking (.readTarget target) fun target => .checking (.readEdit color) fun color =>
      .of_done (guarded_fault fun m => editNaming_fault m target _ _)
  | unit target text =>
    exact .checking (.readTarget target) fun target =>
      .of_done (guarded_fault fun m => editNaming_fault m target _ _)
  | load index => exact .of_done (load_fault m index)
  | save label value unit color =>
    exact .checking (.save m.store label value unit color) fun vs => .of_done rfl
  | forget label => exact .of_done rfl
  | retrieve label =>
    exact .checking (.findVariable m label) fun v => .of_done (typeKept_fault m _ _)
  | retrieveSaved value naming =>
    exact .checking ((Tells.readOption naming.color).map _) fun naming =>
      .of_done (typeKept_fault m _ _)

end Machine

namespace Console

open Machine Outcome

theorem act_spares (m : Machine) {action : Action} (h : action ≠ .calculate) :
    m.RefusalSpares (act m action) := perform_spares m h

/-- Naming the number being typed is never refused. -/
theorem act_label_fault (m : Machine) (text : Option String) :
    (act m (.label Target.current.name text .keep)).fault = none := by
  have htarget : Target.read Target.current.name = .ok .current := by decide
  rw [act, perform, editLabel, htarget]
  exact guarded_fault fun m => editNaming_fault m .current _ _

/-- A number is kept before it is named, and only the keeping can be refused. -/
theorem keep_spares (m : Machine) (name : String) : m.RefusalSpares (keep m name) := by
  unfold keep
  split
  · exact .of_refused m rfl
  · have hsave : m.RefusalSpares
        (act m (.save name m.buffer m.naming.unit (m.naming.color.map Color.name))) :=
      act_spares m nofun
    exact hsave.andThen fun m => act_label_fault m _

/-- Whatever the machine, its buffer and the arguments are: a command that is refused for a fault
that the user is told of leaves the machine as it was, the variables and their order with it. The
notice may have been taken down, and one ident used up. The only other refusal there is is that of a
calculation with an operator that is none. -/
theorem carryOut_spares (m : Machine) (command : Command) {fault : Fault}
    (h : (carryOut m command).fault = some fault) :
    (fault.kind.isTold = true → m.Spares (carryOut m command).machine) ∧
      (fault.kind.isTold = false →
        command = .act .calculate ∧
          ∃ t ∈ m.committed, t.isOperator = true ∧ Operator.ofSymbol? t.value = none) := by
  by_cases hcommand : command = .act .calculate
  · subst hcommand
    obtain ⟨huntold, hunknown⟩ := exists_unknown_of_calculate (m := m) h
    refine ⟨fun htold => ?_, fun _ => ⟨rfl, hunknown⟩⟩
    cases htold.symm.trans huntold
  · have hspares : m.RefusalSpares (carryOut m command) := by
      cases command with
      | act action => exact act_spares m fun haction => hcommand (congrArg _ haction)
      | store name => exact keep_spares m name
      | showHistory | showVariables | showHelp => exact .of_done rfl
    obtain ⟨htold, hspared⟩ := hspares fault h
    exact ⟨fun _ => hspared, fun huntold => by cases htold.symm.trans huntold⟩

/-- A calculation is logged, a variable saved and added to, and then a point typed behind an
exponent, so that the buffer holds no number. -/
def spoilingRun : List Action :=
  [.digit "6", .operator "/", .digit "3", .calculate, .save "rate" "1.5" (some "kg") (some "red"),
    .retrieve "rate", .operator "+", .digit ".", .digit "0", .digit "0", .digit "1", .percentage,
    .label "current" (some "share") .keep, .digit "."]

/-- Commands that come to a commit or a save of that buffer, and commands that name what is not
there. -/
def refusedCommands : List Command :=
  [.act (.parenthesis "("), .act (.parenthesis ")"), .act (.operator "*"), .store "share",
    .act (.digit "twelve"), .act (.operator "mod"), .act (.retrieve "tax"),
    .act (.label "last" (some "rest") (.set "red")), .act (.label "previous" none (.set "mauve")),
    .act (.save "" "1" none none), .act (.save "rate" "1.5 kg" none none),
    .act (.save "rate" "2" none (some "mauve"))]

/-- The user is told of all of these refusals. -/
theorem carryOut_spares_of_spoiled :
    let m := (new (.ofLimit 0)).run spoilingRun
    m.buffer = "1e-05." ∧ m.committed.length = 2 ∧
      ∀ command ∈ refusedCommands,
        (carryOut m command).fault ≠ none ∧ m.Spares (carryOut m command).machine := by
  have hfault : ∀ command ∈ refusedCommands,
      ((carryOut ((new (.ofLimit 0)).run spoilingRun) command).fault.map (·.kind.isTold)) =
        some true := by decide +kernel
  refine ⟨by decide +kernel, by decide +kernel, fun command hcommand => ?_⟩
  obtain ⟨fault, h, htold⟩ := Option.map_eq_some_iff.1 (hfault command hcommand)
  exact ⟨Option.ne_none_iff_exists'.2 ⟨fault, h⟩, (carryOut_spares _ command h).1 htold⟩

end Console

end Keypad
