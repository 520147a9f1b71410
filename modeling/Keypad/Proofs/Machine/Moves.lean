import Keypad.Machine.Action
import Mathlib.Logic.Relation

/-!
# What an action can do

Every action changes the machine by a few of the moves listed in `Move`, each with what is known
when it is made. A property of machines that every move keeps is kept by every action and so by
every run, and its proof is one short case for each move.

* `perform_moves`  — an action is a chain of moves.
* `Along.moves`    — and so is a run.

A host may hand a number back that it once read from the variables. `Move p` lets it hand back any
text of which `p` holds, besides those that are kept.
-/

namespace Keypad

namespace Machine

open Outcome

/-- The operand that the buffer stands for, under an ident. -/
def typed (m : Machine) (ident : String) : Token :=
  Token.plain .operand m.buffer m.naming (some ident)

/-- The machine once its buffer is committed: the ident is used up. -/
def pushed (m : Machine) : Machine :=
  { m with
    nextIdent := m.nextIdent + 1,
    committed := m.committed ++ [m.typed (operandIdent m.nextIdent)] }

/-- The machine with a past calculation as its expression. -/
def loaded (m : Machine) (entry : Entry) : Machine :=
  { m.cleared with committed := entry.tokens, buffer := entry.result, settled := true }

/-- The machine with its notice taken down. -/
def quiet (m : Machine) : Machine := { m with notice := none }

/-- Whether the text is the number of a variable that is kept. -/
def Keeps (m : Machine) (value : String) : Prop := ∃ v ∈ m.store.saved, v.value = value

/-- One change that an action makes. Only loading, clearing, and what concerns the notice or the
variables is done in the error state. -/
inductive Move (p : String → Prop) : Machine → Machine → Prop where
  | notice (m : Machine) (text : Option String) : Move p m { m with notice := text }
  | type {m : Machine} (hm : m.failed = false) {key : Char} (hkey : Buffer.isKey key = true) :
      Move p m (m.typeKey key)
  /-- A commit is refused, which uses up an ident. -/
  | waste {m : Machine} (hm : m.failed = false) {fault : Fault}
      (hread : Number.read m.buffer = .error fault) :
      Move p m { m with nextIdent := m.nextIdent + 1 }
  | push {m : Machine} (hm : m.failed = false) {x : Double} (hread : Number.read m.buffer = .ok x) :
      Move p m m.pushed
  | operator {m : Machine} (hm : m.failed = false) (op : Operator) : Move p m (m.appendOperator op)
  | replace {m : Machine} (hm : m.failed = false) (hs : m.settled = true) {last : Token}
      (hlast : m.committed.getLast? = some last) (hop : last.isOperator = true) (op : Operator) :
      Move p m
        { m with committed := m.committed.dropLast ++ [{ last with value := op.symbol }] }
  | opening {m : Machine} (hm : m.failed = false) : Move p m (m.appendMark .opening)
  | closing {m : Machine} (hm : m.failed = false) :
      Move p m { m.appendMark .closing with settled := true }
  | conclude {m : Machine} (hm : m.failed = false) {x : Double}
      (hx : Expression.evaluate m.committed = .ok x) : Move p m (m.concluded x.resultText)
  | fail {m : Machine} (hm : m.failed = false) : Move p m m.enterError
  | clear (m : Machine) : Move p m m.cleared
  | erase {m : Machine} (hm : m.failed = false) (hs : m.settled = false) :
      Move p m { m with buffer := Buffer.erase m.buffer }
  | sign {m : Machine} (hm : m.failed = false) {x : Double} (hread : Number.read m.buffer = .ok x)
      (hx : x.isZero = false) : Move p m { m with buffer := Buffer.toggleSign m.buffer }
  | percent {m : Machine} (hm : m.failed = false) (x : Double) :
      Move p m { m with buffer := x.canonicalText }
  | name {m : Machine} (hm : m.failed = false) (naming : Naming) :
      Move p m { m with naming := naming }
  | edit {m : Machine} (hm : m.failed = false) {change : Naming → Naming} {tokens : Expression}
      (htokens : editLastOperand? (fun t => { t with naming := change t.naming }) m.committed =
        some tokens) :
      Move p m { m with committed := tokens }
  | load {m : Machine} {entry : Entry} (hentry : entry ∈ m.history.entries) :
      Move p m (m.loaded entry)
  | save {m : Machine} {label value : String} {unit color : Option String} {vs : Variables}
      (hvs : m.store.save label value unit color = .ok vs) : Move p m { m with store := vs }
  | forget (m : Machine) (label : String) : Move p m { m with store := m.store.delete label }
  | retrieve {m : Machine} (hm : m.failed = false) {value : String}
      (hvalue : p value ∨ m.Keeps value) (naming : Naming) :
      Move p m { m with buffer := value, naming := naming, settled := false, intermediate := false }

/-- A chain of moves. -/
abbrev Moves (p : String → Prop) : Machine → Machine → Prop := Relation.ReflTransGen (Move p)

/-- What every move keeps is kept by a chain of them. -/
theorem Moves.keep {p : String → Prop} {P : Machine → Prop} {m m' : Machine} (h : Moves p m m')
    (hstep : ∀ m m', Move p m m' → P m → P m') (hm : P m) : P m' := by
  induction h with
  | refl => exact hm
  | tail _ hmove ih => exact hstep _ _ hmove ih

variable {p : String → Prop} {m : Machine}

/-! ## What requests name -/

/-- What is read as a key is one. -/
theorem isKey_of_readKey {text : String} {c : Char} (h : readKey text = .ok c) :
    Buffer.isKey c = true := by
  unfold readKey at h
  split at h
  · split at h
    · next hkey =>
      obtain rfl := Except.ok.inj h
      exact hkey
    · cases h
  · cases h

/-- Every key can be read. -/
theorem readKey_singleton {c : Char} (h : Buffer.isKey c = true) :
    readKey (String.singleton c) = .ok c := by
  rw [readKey, String.toList_singleton]
  exact if_pos h

theorem readMark_text (mark : Mark) : readMark mark.text = .ok mark := by
  cases mark <;> rfl

/-- A variable that is found is one that is kept. -/
theorem mem_saved_of_findVariable {label : String} {v : Variable}
    (h : m.findVariable label = .ok v) : v ∈ m.store.saved := by
  unfold findVariable at h
  split at h
  · next hfind =>
    obtain rfl := Except.ok.inj h
    exact List.mem_of_find?_eq_some hfind
  · cases h

/-- An entry that is found is one of the history. -/
theorem mem_entries_of_get? {h : History} {index : Int} {entry : Entry}
    (hentry : h.get? index = some entry) : entry ∈ h.entries := by
  unfold History.get? at hentry
  exact List.mem_of_getElem? (Option.ite_none_left_eq_some.1 hentry).2

/-! ## How actions are put together -/

/-- What holds of a refusal, and of the action on anything that was read, holds of the two. -/
theorem checking_elim {P : Outcome Event → Prop} {α : Type} {argument : Except Fault α}
    {action : α → Outcome Event} (herror : ∀ fault, P (refused m fault))
    (hok : ∀ a, argument = .ok a → P (action a)) : P (m.checking argument action) := by
  unfold checking
  cases argument with
  | error fault => exact herror fault
  | ok a => exact hok a rfl

/-- In the error state an action only takes the notice down. -/
theorem guarded_of_failed (h : m.failed = true) (name : String)
    (action : Machine → Outcome Event) :
    m.guarded name action = noted m.quiet (.ignored name) := if_pos h

/-- Outside it, the action is done once the notice is down. -/
theorem guarded_of_not_failed (h : m.failed = false) (name : String)
    (action : Machine → Outcome Event) : m.guarded name action = action m.quiet :=
  if_neg (Bool.not_eq_true _ ▸ h)

/-- A key of a number is typed. -/
theorem perform_key (hm : m.failed = false) {key : Char} (hkey : Buffer.isKey key = true) :
    m.perform (.digit (String.singleton key)) = done (m.quiet.typeKey key) := by
  rw [perform, pressDigit, readKey_singleton hkey, checking, guarded_of_not_failed hm]

/-- What holds of an ignored action and of one that is done holds of a guarded one. -/
theorem guarded_elim {P : Outcome Event → Prop} {name : String} {action : Machine → Outcome Event}
    (hfailed : m.failed = true → P (noted m.quiet (.ignored name)))
    (h : m.failed = false → P (action m.quiet)) : P (m.guarded name action) := by
  cases hm : m.failed with
  | true =>
    rw [guarded_of_failed hm]
    exact hfailed hm
  | false =>
    rw [guarded_of_not_failed hm]
    exact h hm

/-- An action that is refused nowhere is not refused when it is guarded. -/
theorem guarded_fault {name : String} {action : Machine → Outcome Event}
    (h : ∀ m, (action m).fault = none) : (m.guarded name action).fault = none :=
  guarded_elim (P := fun o => o.fault = none) (fun _ => rfl) fun _ => h _

/-- A key of a number is refused in no state. -/
theorem perform_key_fault {key : Char} (hkey : Buffer.isKey key = true) (m : Machine) :
    (m.perform (.digit (String.singleton key))).fault = none := by
  rw [perform, pressDigit, readKey_singleton hkey, checking]
  exact guarded_fault fun _ => rfl

/-- A fault ends the sequence, and its machine is that of the first part. -/
theorem andThen_elim {P : Machine → Prop} {ε : Type} {o : Outcome ε} {next : Machine → Outcome ε}
    (h : P o.machine) (hnext : o.fault = none → P (next o.machine).machine) :
    P (o.andThen next).machine := by
  cases ho : o.fault with
  | some fault => rwa [andThen_of_fault ho]
  | none =>
    rw [andThen_of_done ho]
    exact hnext ho

/-- A refused argument moves nothing. -/
theorem checking_moves {α : Type} {argument : Except Fault α} {action : α → Outcome Event}
    (h : ∀ a, argument = .ok a → Moves p m (action a).machine) :
    Moves p m (m.checking argument action).machine :=
  checking_elim (P := fun o => Moves p m o.machine) (fun _ => .refl) h

/-- Taking the notice down is a move of its own. -/
theorem guarded_moves {name : String} {action : Machine → Outcome Event}
    (h : m.quiet.failed = false → Moves p m.quiet (action m.quiet).machine) :
    Moves p m (m.guarded name action).machine := by
  refine .head (show Move p m m.quiet from .notice m none) ?_
  exact guarded_elim (P := fun o => Moves p m.quiet o.machine) (fun _ => .refl) h

/-- The moves of two parts follow each other. -/
theorem andThen_moves {o : Outcome Event} {next : Machine → Outcome Event}
    (h : Moves p m o.machine)
    (hnext : o.fault = none → Moves p o.machine (next o.machine).machine) :
    Moves p m (o.andThen next).machine :=
  andThen_elim h fun ho => h.trans (hnext ho)

/-- Two parts that do not concern the error state do not concern it together. -/
theorem andThen_failed {o : Outcome Event} {next : Machine → Outcome Event}
    (h : (next o.machine).machine.failed = o.machine.failed) :
    (o.andThen next).machine.failed = o.machine.failed :=
  andThen_elim (P := fun m => m.failed = o.machine.failed) rfl fun _ => h

/-! ## Committing -/

/-- A number that can be read is committed. -/
theorem commit_of_read {x : Double} (h : Number.read m.buffer = .ok x) :
    m.commit = noted m.pushed (.committed (m.typed (operandIdent m.nextIdent))) := by
  simp only [commit, Token.operand, h]
  rfl

/-- One that cannot be read is refused, but its ident is used up. -/
theorem commit_of_error {fault : Fault} (h : Number.read m.buffer = .error fault) :
    m.commit = refused { m with nextIdent := m.nextIdent + 1 } fault := by
  simp only [commit, Token.operand, h]
  rfl

/-- Committing is a move, whatever the buffer holds. -/
theorem commit_moves (hm : m.failed = false) : Moves p m m.commit.machine := by
  cases h : Number.read m.buffer with
  | error fault =>
    rw [commit_of_error h]
    exact .single (.waste hm h)
  | ok x =>
    rw [commit_of_read h]
    exact .single (.push hm h)

/-- Committing never leads into the error state or out of it. -/
theorem commit_failed : m.commit.machine.failed = m.failed := by
  cases h : Number.read m.buffer with
  | error fault => rw [commit_of_error h]; rfl
  | ok x => rw [commit_of_read h]; rfl

/-- A settled number is not committed, which is no move at all. -/
theorem commitTyped_moves (hm : m.failed = false) : Moves p m m.commitTyped.machine := by
  unfold commitTyped
  split
  · exact .refl
  · exact commit_moves hm

/-- This does not concern the error state either. -/
theorem commitTyped_failed : m.commitTyped.machine.failed = m.failed := by
  unfold commitTyped
  split
  · rfl
  · exact commit_failed

/-! ## The actions one by one -/

/-- An operator commits what is being typed, and then goes behind the row or replaces its last
operator. -/
theorem typeOperator_moves (hm : m.failed = false) (op : Operator) :
    Moves p m (m.typeOperator op).machine := by
  unfold typeOperator
  split
  · refine andThen_moves (commit_moves hm) fun _ => .single (.operator ?_ op)
    rw [commit_failed, hm]
  · -- the buffer is settled and something is committed, so there may be an operator to replace
    next h =>
    simp only [Bool.or_eq_true, not_or, Bool.not_eq_true, Bool.not_eq_false'] at h
    split
    · next last hlast =>
      obtain ⟨hlast, hop⟩ := Option.filter_eq_some_iff.1 hlast
      exact .single (.replace hm h.1 hlast hop op)
    · exact .single (.operator hm op)

/-- An operator never leads into the error state or out of it. -/
theorem typeOperator_failed (op : Operator) : (m.typeOperator op).machine.failed = m.failed := by
  unfold typeOperator
  split
  · have happend (m : Machine) : (done (m.appendOperator op) : Outcome Event).machine.failed =
        m.failed := rfl
    exact (andThen_failed (happend _)).trans commit_failed
  · split <;> rfl

/-- An opening mark may multiply first, and a closing mark commits first. -/
theorem typeMark_moves (hm : m.failed = false) (mark : Mark) :
    Moves p m (m.typeMark mark).machine := by
  cases mark with
  | opening =>
    refine andThen_moves ?_ fun _ => .single (.opening ?_)
    · split
      · exact typeOperator_moves hm _
      · exact .refl
    · split
      · rw [typeOperator_failed, hm]
      · exact hm
  | closing =>
    refine andThen_moves (commitTyped_moves hm) fun _ => .single (.closing ?_)
    rw [commitTyped_failed, hm]

/-- Evaluating the row ends with a result, in the error state, or with nothing done. -/
theorem evaluateCommitted_moves (hm : m.failed = false) :
    Moves p m m.evaluateCommitted.machine := by
  unfold evaluateCommitted
  split
  · exact .refl
  · split
    · split
      · exact .single (.fail hm)
      · exact .refl
    · next hx => exact .single (.conclude hm hx)

/-- A calculation commits first. -/
theorem calculate_moves : Moves p m m.calculate.machine := by
  refine guarded_moves fun hm => ?_
  have hcommit := commitTyped_moves (p := p) hm
  have hfailed := (commitTyped_failed (m := m.quiet)).trans hm
  split
  · -- a commit that is refused uses up its ident before the error state
    next h =>
    rw [h] at hcommit hfailed
    exact hcommit.tail (.fail hfailed)
  · exact andThen_moves hcommit fun _ => evaluateCommitted_moves hfailed

/-- The sign is changed where there is a number that has one. -/
theorem toggleSign_moves : Moves p m m.toggleSign.machine := by
  refine guarded_moves fun hm => ?_
  split
  · exact .single (.fail hm)
  · next x hread =>
    cases hx : x.isZero with
    | true => exact .refl
    | false => exact .single (.sign hm hread hx)

/-- A percentage puts another number into the buffer, if there is one. -/
theorem percentage_moves : Moves p m m.percentage.machine := by
  refine guarded_moves fun hm => ?_
  split
  · exact .single (.fail hm)
  · next x _ => exact .single (.percent hm x)

/-- Only what is being typed can be taken back. -/
theorem delete_moves : Moves p m m.delete.machine := by
  refine guarded_moves fun hm => ?_
  split
  · exact .refl
  · next hs => exact .single (.erase hm (Bool.eq_false_iff.2 hs))

/-- Naming the buffer is one move, and so is naming the last operand, if there is one. -/
theorem editNaming_moves (hm : m.failed = false) (target : Target) (change : Naming → Naming)
    (missing : Event) : Moves p m (m.editNaming target change missing).machine := by
  cases target with
  | current =>
    simp only [editNaming, editBuffer]
    split
    · exact .single (.notice m _)
    · exact .single (.name hm _)
  | previous =>
    simp only [editNaming, editPrevious]
    split
    · next htokens => exact .single (.edit hm htokens)
    · exact .refl

/-- An entry that is not there is not loaded. -/
theorem load_moves (index : Int) : Moves p m (m.load index).machine := by
  unfold load
  split
  · exact .refl
  · split
    · exact .refl
    · next entry hentry => exact .single (.load (mem_entries_of_get? hentry))

/-- A number that was kept goes into the buffer with its naming. -/
theorem typeKept_moves {value : String} (hvalue : p value ∨ m.Keeps value) (naming : Naming) :
    Moves p m (m.typeKept value naming).machine :=
  guarded_moves fun hm => .single (.retrieve hm hvalue naming)

end Machine

/-- Whether a number that the host hands back is one that is kept, or one of which `p` holds. -/
def Action.HandsBack (p : String → Prop) (m : Machine) : Action → Prop
  | .retrieveSaved value _ => p value ∨ m.Keeps value
  | _ => True

/-- A host may hand back any text. -/
theorem Action.handsBack_any (m : Machine) (action : Action) :
    action.HandsBack (fun _ => True) m := by
  cases action with
  | retrieveSaved value naming => exact .inl trivial
  | _ => trivial

namespace Machine

/-- An action is a chain of moves. -/
theorem perform_moves {p : String → Prop} {m : Machine} {action : Action}
    (h : action.HandsBack p m) : Moves p m (m.perform action).machine := by
  cases action with
  | digit key =>
    exact checking_moves fun c hc => guarded_moves fun hm =>
      .single (.type hm (isKey_of_readKey hc))
  | point => exact guarded_moves fun hm => .single (.type hm rfl)
  | parenthesis mark =>
    exact checking_moves fun mark _ => guarded_moves fun hm => typeMark_moves hm mark
  | operator spelling =>
    exact checking_moves fun op _ => guarded_moves fun hm => typeOperator_moves hm op
  | calculate => exact calculate_moves
  | clear => exact .single (.clear m)
  | delete => exact delete_moves
  | toggleSign => exact toggleSign_moves
  | percentage => exact percentage_moves
  | label target text color =>
    exact checking_moves fun target _ => checking_moves fun color _ =>
      guarded_moves fun hm => editNaming_moves hm target _ _
  | unit target text =>
    exact checking_moves fun target _ => guarded_moves fun hm => editNaming_moves hm target _ _
  | load index => exact load_moves index
  | save label value unit color => exact checking_moves fun vs hvs => .single (.save hvs)
  | forget label => exact .single (.forget m label)
  | retrieve label =>
    exact checking_moves fun v hv =>
      typeKept_moves (.inr ⟨v, mem_saved_of_findVariable hv, rfl⟩) _
  | retrieveSaved value naming => exact checking_moves fun naming _ => typeKept_moves h naming

/-! ## Runs -/

/-- Whether a property holds of every action of a run and the machine it is done to. -/
def Along (q : Machine → Action → Prop) (m : Machine) : List Action → Prop
  | [] => True
  | action :: actions => q m action ∧ Along q (m.perform action).machine actions

/-- A run goes on after its first action, refused or not. -/
theorem run_cons (m : Machine) (action : Action) (actions : List Action) :
    m.run (action :: actions) = (m.perform action).machine.run actions := rfl

/-- What holds of every action and machine holds along every run. -/
theorem along_of_forall {q : Machine → Action → Prop} (h : ∀ m action, q m action) (m : Machine)
    (actions : List Action) : Along q m actions := by
  induction actions generalizing m with
  | nil => trivial
  | cons action actions ih => exact ⟨h m action, ih _⟩

/-- What holds along a run holds along its front, and along the rest from there. -/
theorem along_append {q : Machine → Action → Prop} {m : Machine} {actions more : List Action} :
    Along q m (actions ++ more) ↔ Along q m actions ∧ Along q (m.run actions) more := by
  induction actions generalizing m with
  | nil => exact (iff_of_eq (true_and _)).symm
  | cons action actions ih =>
    rw [List.cons_append, Along, Along, ih, run_cons, and_assoc]

/-- A run is a chain of moves. -/
theorem Along.moves {p : String → Prop} {m : Machine} {actions : List Action}
    (h : Along (fun m action => action.HandsBack p m) m actions) : Moves p m (m.run actions) := by
  induction actions generalizing m with
  | nil => exact .refl
  | cons action actions ih =>
    rw [run_cons]
    exact (perform_moves h.1).trans (ih h.2)

/-- Any run is, if a host may hand back any text. -/
theorem run_moves (m : Machine) (actions : List Action) :
    Moves (fun _ => True) m (m.run actions) :=
  (along_of_forall (fun m action => action.handsBack_any m) m actions).moves

end Machine

end Keypad
