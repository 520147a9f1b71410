import Keypad.Proofs.Machine.Loading

/-!
# Names, units and colours do not count

What a user attaches to numbers is kept, copied and brought back with them, but no action looks at
it. `Machine.bare` takes it off a machine. Two machines that are then the same stay so under the
same action, and still do if the action attaches something else to a number; editing what is
attached to one is no action at all.

* `perform_effect`  — an action on machines that differ in names, units and colours only.
* `perform_renames` — an edit of these.
* `effects_bare`    — runs whose actions differ in them only, with edits anywhere in between.
-/

namespace Keypad

/-- The variable without what is attached to its number. The name that it is kept under stays. -/
def Variable.bare (v : Variable) : Variable := { v with unit := none, color := none }

/-- The variables without what is attached to their numbers. -/
def Variables.bare (vs : Variables) : Variables := { vs with saved := vs.saved.map Variable.bare }

/-- The calculation without what is attached to its operands. -/
def Entry.bare (e : Entry) : Entry := { e with tokens := e.tokens.map Token.bare }

/-- The history without what is attached to the operands. -/
def History.bare (h : History) : History :=
  { h with
    entries := h.entries.map Entry.bare
    length_le := by
      rw [List.length_map]
      exact h.length_le }

namespace Action

/-- The action without what it attaches to a number. Of an edit nothing is left. -/
def bare? : Action → Option Action
  | .label _ _ _ | .unit _ _ => none
  | .save name value _ _ => some (.save name value none none)
  | .retrieveSaved value _ => some (.retrieveSaved value ⟨none, none, none⟩)
  | action => some action

/-- The targets and colours that the action names are some. -/
def NamesProperly : Action → Prop
  | .label target _ color => (∃ t, Target.read target = .ok t) ∧ ∃ c, color.readColor = .ok c
  | .unit target _ => ∃ t, Target.read target = .ok t
  | .save _ _ _ color => ∃ c, Color.readOption color = .ok c
  | .retrieveSaved _ naming => ∃ n, naming.read = .ok n
  | _ => True

/-- What is left of an action has nothing more to lose. -/
theorem bare?_bare {action bare : Action} (h : action.bare? = some bare) :
    bare.bare? = some bare := by
  cases action with
  | label target text color => cases h
  | unit target text => cases h
  | _ =>
    obtain rfl := Option.some.inj h
    rfl

end Action

namespace Variables

/-- A variable is given up by its name. -/
theorem delete_bare (vs : Variables) (label : String) :
    (vs.delete label).bare = vs.bare.delete label := by
  simp only [delete, bare, List.filter_map]
  rfl

/-- Where a variable is put does not depend on its unit and colour. -/
theorem insert_bare (vs : Variables) (v : Variable) :
    (vs.insert v).bare = vs.bare.insert v.bare := by
  have hsaved : (vs.bare.delete v.bare.label).saved = (vs.delete v.label).saved.map Variable.bare :=
    congrArg saved (vs.delete_bare v.label).symm
  simp only [insert, hsaved]
  rw [← List.map_singleton, ← List.map_append, bare]
  exact congrArg (fun saved => Variables.mk saved v.stamp) (List.map_mergeSort fun _ _ _ _ => rfl)

/-- Which unit and colour a number is saved with decides nothing, if the colour is one. -/
theorem save_bare (vs : Variables) (label value : String) (unit : Option String)
    {color : Option String} (hcolor : ∃ c, Color.readOption color = .ok c) :
    (vs.save label value unit color).map bare = vs.bare.save label value none none := by
  obtain ⟨c, hc⟩ := hcolor
  unfold save saveAt
  by_cases hlabel : label = ""
  · rw [if_pos hlabel, if_pos hlabel]
    rfl
  · -- the value is read before the colour is looked up, and decides alone
    rw [if_neg hlabel, if_neg hlabel, hc]
    cases Number.read value with
    | error fault => rfl
    | ok x => exact congrArg Except.ok (vs.insert_bare _)

theorem find?_bare (vs : Variables) (label : String) :
    vs.bare.find? label = (vs.find? label).map Variable.bare := List.find?_map

end Variables

namespace History

theorem push_bare (h : History) (e : Entry) : (h.push e).bare = h.bare.push e.bare := by
  simp only [push, bare, List.map_take, List.map_cons]

/-- An entry of the history is found by its place, named or not. -/
theorem get?_bare (h : History) (index : Int) :
    h.bare.get? index = (h.get? index).map Entry.bare := by
  simp only [get?, bare, List.length_map, List.getElem?_map]
  rw [apply_ite (Option.map Entry.bare)]
  rfl

end History

namespace Machine

open Outcome

/-- The machine without what is attached to its numbers, and without its notice. -/
def bare (m : Machine) : Machine :=
  { m with
    naming := .blank, notice := none, committed := m.committed.map Token.bare,
    history := m.history.bare, store := m.store.bare }

/-- What the outcome is, but for what is attached to numbers: whether the action was refused, and
the machine afterwards. -/
def Outcome.effect (o : Outcome Event) : Option Fault × Machine := (o.fault, o.machine.bare)

/-- What the actions of a run come to, those left out that only edit a naming. -/
def effects (m : Machine) : List Action → List (Option Fault × Machine)
  | [] => []
  | action :: actions =>
    let o := m.perform action
    let rest := effects o.machine actions
    if action.bare?.isSome then o.effect :: rest else rest

/-- On machines that differ in what is attached to numbers only, the steps come to the same. -/
def SameEffect (step step' : Machine → Outcome Event) : Prop :=
  ∀ ⦃m m'⦄, m.bare = m'.bare → (step m).effect = (step' m').effect

variable {m m' : Machine}

theorem fault_of_effect {o o' : Outcome Event} (h : o.effect = o'.effect) : o.fault = o'.fault :=
  congrArg Prod.fst h

theorem bare_of_effect {o o' : Outcome Event} (h : o.effect = o'.effect) :
    o.machine.bare = o'.machine.bare := congrArg Prod.snd h

theorem failed_of_bare (h : m.bare = m'.bare) : m.failed = m'.failed := by
  have hfailed : m.bare.failed = m'.bare.failed := congrArg failed h
  exact hfailed

/-! ## How actions are put together -/

namespace SameEffect

variable {step step' next next' : Machine → Outcome Event}

/-- A step that commutes with `bare` does not look at what `bare` takes off. -/
theorem of_bare (h : ∀ m, (step m).effect = ((step m.bare).fault, (step m.bare).machine)) :
    SameEffect step step := by
  intro m m' hm
  rw [h, h, hm]

/-- A change that commutes with `bare` is such a step. -/
theorem of_done {f : Machine → Machine} (h : ∀ m, (f m).bare = f m.bare) :
    SameEffect (fun m => done (f m)) fun m => done (f m) :=
  of_bare fun m => congrArg (Prod.mk none) (h m)

/-- Steps may follow each other. -/
theorem andThen (h : SameEffect step step') (hnext : SameEffect next next') :
    SameEffect (fun m => (step m).andThen next) fun m => (step' m).andThen next' := by
  intro m m' hm
  have hstep := h hm
  -- either both first parts are refused, or both go on with machines that are alike
  have hfault := fault_of_effect hstep
  dsimp only
  cases ho : (step m).fault with
  | some fault =>
    rw [andThen_of_fault ho, andThen_of_fault (hfault.symm.trans ho)]
    exact hstep
  | none =>
    rw [andThen_of_done ho, andThen_of_done (hfault.symm.trans ho)]
    exact hnext (bare_of_effect hstep)

/-- A choice may depend on what shows on a bare machine. -/
theorem ite {c : Machine → Bool} (hc : ∀ m, c m.bare = c m) (h : SameEffect step step')
    (hnext : SameEffect next next') :
    SameEffect (fun m => if c m then step m else next m)
      fun m => if c m then step' m else next' m := by
  intro m m' hm
  dsimp only
  rw [← hc m', ← hm, hc m]
  split
  · exact h hm
  · exact hnext hm

/-- A guard may be put around steps of the same effect. -/
theorem guarded (name : String) (h : SameEffect step step') :
    SameEffect (fun m => m.guarded name step) fun m => m.guarded name step' := by
  intro m m' hm
  dsimp only
  cases hfailed : m.failed with
  | true =>
    rw [guarded_of_failed hfailed, guarded_of_failed ((failed_of_bare hm).symm.trans hfailed)]
    exact congrArg (Prod.mk none) hm
  | false =>
    rw [guarded_of_not_failed hfailed,
      guarded_of_not_failed ((failed_of_bare hm).symm.trans hfailed)]
    exact @h m.quiet m'.quiet hm

/-- The arguments may differ where the steps do not look. -/
theorem checking {α β γ : Type} {f : α → γ} {g : β → γ} {argument : Except Fault α}
    {argument' : Except Fault β} {step : α → Outcome Event} {step' : β → Outcome Event}
    (hm : m.bare = m'.bare) (hargument : argument.map f = argument'.map g)
    (h : ∀ a b, f a = g b → (step a).effect = (step' b).effect) :
    (m.checking argument step).effect = (m'.checking argument' step').effect := by
  cases argument with
  | error fault =>
    cases argument' with
    | error fault' =>
      obtain rfl := Except.error.inj hargument
      exact congrArg (Prod.mk (some fault)) hm
    | ok b => cases hargument
  | ok a =>
    cases argument' with
    | error fault' => cases hargument
    | ok b => exact h a b (Except.ok.inj hargument)

/-- A check of an argument may be put around steps that do not look at names. -/
theorem checked {α : Type} (argument : Except Fault α) {step : α → Machine → Outcome Event}
    (h : ∀ a, SameEffect (step a) (step a)) :
    SameEffect (fun m => m.checking argument fun a => step a m)
      fun m => m.checking argument fun a => step a m := by
  intro m m' hm
  refine checking (f := id) (g := id) hm rfl fun a b hab => ?_
  obtain rfl : a = b := hab
  exact h a hm

end SameEffect

/-! ## The actions one by one -/

/-- A key un-names the number or leaves the name, and puts the same text in either case. -/
theorem typeKey_bare (m : Machine) (key : Char) : (m.typeKey key).bare = m.bare.typeKey key := by
  unfold typeKey retype
  by_cases hs : m.settled = true
  · rw [if_pos hs, if_pos (show m.bare.settled = true from hs)]
    rfl
  · rw [if_neg hs, if_neg (show ¬m.bare.settled = true from hs)]
    by_cases hkey : Buffer.ignores m.buffer key = true
    · rw [if_pos hkey, if_pos (show Buffer.ignores m.bare.buffer key = true from hkey)]
    · rw [if_neg hkey, if_neg (show ¬Buffer.ignores m.bare.buffer key = true from hkey)]
      rfl

/-- An operator goes behind a bare row as it does behind any other. -/
theorem appendOperator_bare (m : Machine) (op : Operator) :
    (m.appendOperator op).bare = m.bare.appendOperator op := by
  simp only [appendOperator, bare, List.map_append]
  rfl

/-- A mark comes behind the row with or without the names in it. -/
theorem appendMark_bare (m : Machine) (mark : Mark) :
    (m.appendMark mark).bare = m.bare.appendMark mark := by
  simp only [appendMark, bare, List.map_append]
  rfl

/-- The number that is committed loses its name on the way, or before. -/
theorem pushed_bare (m : Machine) : m.pushed.bare = m.bare.pushed := by
  simp only [pushed, bare, List.map_append]
  rfl

/-- A result is kept with the bare row. -/
theorem concluded_bare (m : Machine) (result : String) :
    (m.concluded result).bare = m.bare.concluded result := by
  simp only [concluded, bare, History.push_bare]
  rfl

/-- Whether a number can be committed is told by its text. -/
theorem commit_sameEffect : SameEffect commit commit := by
  refine .of_bare fun m => ?_
  cases hread : Number.read m.buffer with
  | error fault =>
    rw [commit_of_error hread, commit_of_error (m := m.bare) hread]
    rfl
  | ok x =>
    rw [commit_of_read hread, commit_of_read (m := m.bare) hread]
    exact congrArg (Prod.mk none) m.pushed_bare

/-- Whether it is to be committed does not depend on its name. -/
theorem commitTyped_sameEffect : SameEffect commitTyped commitTyped :=
  .ite (c := settled) (fun _ => rfl) (.of_done (f := id) fun _ => rfl) commit_sameEffect

/-- Taking names off leaves the last operator where it is. -/
theorem lastOperator?_bare (m : Machine) :
    m.bare.lastOperator? = m.lastOperator?.map Token.bare := by
  rw [lastOperator?, bare, List.getLast?_map, Option.filter_map]
  rfl

/-- An operator is put behind the row or replaces the last one, whatever the names are. -/
theorem typeOperator_sameEffect (op : Operator) :
    SameEffect (fun m => m.typeOperator op) fun m => m.typeOperator op := by
  refine .ite (c := fun m => !m.settled || m.committed.isEmpty) (fun m => ?_)
    (commit_sameEffect.andThen (.of_done fun m => m.appendOperator_bare op)) (.of_bare fun m => ?_)
  · dsimp only [bare]
    rw [List.isEmpty_map]
  · rw [lastOperator?_bare]
    cases m.lastOperator? with
    | none => exact congrArg (Prod.mk none) (m.appendOperator_bare op)
    | some last =>
      simp only [effect, noted, bare, Option.map_some, List.map_append, List.map_dropLast]
      rfl

/-- A mark multiplies or commits whatever the names are. -/
theorem typeMark_sameEffect (mark : Mark) :
    SameEffect (fun m => m.typeMark mark) fun m => m.typeMark mark := by
  cases mark with
  | opening =>
    have hfactor : SameEffect
        (fun m => if m.hasFactor then m.typeOperator .multiply else done m)
        fun m => if m.hasFactor then m.typeOperator .multiply else done m :=
      .ite (fun _ => rfl) (typeOperator_sameEffect .multiply) (.of_done fun _ => rfl)
    exact hfactor.andThen (.of_done fun m => m.appendMark_bare .opening)
  | closing =>
    have hmark (m : Machine) : bare { m.appendMark .closing with settled := true } =
        { m.bare.appendMark .closing with settled := true } :=
      congrArg (fun m => { m with settled := true }) (m.appendMark_bare .closing)
    have hclosing := commitTyped_sameEffect.andThen (SameEffect.of_done hmark)
    exact hclosing

/-- Names, units and colours are not evaluated. -/
theorem evaluateCommitted_sameEffect : SameEffect evaluateCommitted evaluateCommitted := by
  refine .of_bare fun m => ?_
  by_cases hrow : m.committed = []
  · rw [evaluateCommitted_of_nil hrow,
      evaluateCommitted_of_nil (m := m.bare) (List.map_eq_nil_iff.2 hrow)]
    rfl
  · have hvalue := Expression.evaluate_map Expression.superficial_bare m.committed
    have hbare : m.bare.committed ≠ [] := fun hnil => hrow (List.map_eq_nil_iff.1 hnil)
    cases hx : Expression.evaluate m.committed with
    | error fault =>
      cases hfault : fault.kind.isTold with
      | true =>
        rw [evaluateCommitted_of_error hrow hx hfault,
          evaluateCommitted_of_error hbare (hvalue.trans hx) hfault]
        rfl
      | false =>
        rw [evaluateCommitted_of_untold hrow hx hfault,
          evaluateCommitted_of_untold hbare (hvalue.trans hx) hfault]
        rfl
    | ok x =>
      rw [evaluateCommitted_of_ok hrow hx, evaluateCommitted_of_ok hbare (hvalue.trans hx)]
      exact congrArg (Prod.mk none) (m.concluded_bare _)

/-- A calculation comes to the same whatever the names are. -/
theorem calculate_sameEffect : SameEffect calculate calculate := by
  refine .guarded "calculate" fun m m' hm => ?_
  have hcommit := commitTyped_sameEffect hm
  have hevaluate := commitTyped_sameEffect.andThen evaluateCommitted_sameEffect hm
  dsimp only at hevaluate
  generalize m.commitTyped = o at hcommit hevaluate ⊢
  generalize m'.commitTyped = o' at hcommit hevaluate ⊢
  obtain ⟨m₁, fault, log⟩ := o
  obtain ⟨m₁', fault', log'⟩ := o'
  obtain rfl : fault = fault' := fault_of_effect hcommit
  -- a refused commit leads both into the error state, which leaves no naming
  cases fault with
  | some fault => exact congrArg (fun m => (none, m.enterError)) (bare_of_effect hcommit)
  | none => exact hevaluate

/-- Stated for any text, so that edits of the buffer need not be unfolded. -/
theorem retext_bare (m : Machine) (text : String) :
    bare { m with buffer := text } = { m.bare with buffer := text } := rfl

/-- The sign is a matter of the text. -/
theorem toggleSign_sameEffect : SameEffect toggleSign toggleSign := by
  refine .guarded "toggle sign" (.of_bare fun m => ?_)
  have hbuffer : m.bare.buffer = m.buffer := rfl
  rw [hbuffer]
  cases Number.read m.buffer with
  | error fault => rfl
  | ok x =>
    dsimp only [done]
    split
    · rfl
    · exact congrArg (Prod.mk none) (m.retext_bare _)

/-- A percentage is taken of the number, whatever its name is. -/
theorem percentage_sameEffect : SameEffect percentage percentage := by
  refine .guarded "percentage" (.of_bare fun m => ?_)
  have hbuffer : m.bare.buffer = m.buffer := rfl
  rw [hbuffer]
  cases Number.read m.buffer >>= fun x => (x.div hundred).toDouble with
  | error fault => rfl
  | ok x => exact congrArg (Prod.mk none) (m.retext_bare _)

/-- What is taken back does not depend on names. -/
theorem delete_sameEffect : SameEffect delete delete := by
  refine .guarded "delete" (.of_done fun m => ?_)
  have hsettled : m.bare.settled = m.settled := rfl
  have hbuffer : m.bare.buffer = m.buffer := rfl
  rw [hsettled, hbuffer]
  split
  · rfl
  · exact m.retext_bare _

/-- A loaded entry comes with the names it was kept with. -/
theorem load_sameEffect (index : Int) :
    SameEffect (fun m => m.load index) fun m => m.load index := by
  refine .of_bare fun m => ?_
  have hget : m.bare.history.get? index = (m.history.get? index).map Entry.bare :=
    m.history.get?_bare index
  unfold load
  split
  · rfl
  · rw [hget]
    cases m.history.get? index <;> rfl

/-- A number is saved under its name, whatever its unit and colour are. -/
theorem save_effect (hm : m.bare = m'.bare) (label value : String) (unit unit' : Option String)
    {color color' : Option String} (hcolor : ∃ c, Color.readOption color = .ok c)
    (hcolor' : ∃ c, Color.readOption color' = .ok c) :
    (m.save label value unit color).effect = (m'.save label value unit' color').effect := by
  have hstore : m.store.bare = m'.store.bare := congrArg store hm
  refine SameEffect.checking (f := Variables.bare) (g := Variables.bare) hm ?_ fun vs vs' hvs => ?_
  · rw [Variables.save_bare _ _ _ _ hcolor, Variables.save_bare _ _ _ _ hcolor', hstore]
  · have hmachine : { m.bare with store := vs.bare } = { m'.bare with store := vs'.bare } := by
      rw [hm, hvs]
    exact congrArg (Prod.mk none) hmachine

theorem forget_sameEffect (label : String) :
    SameEffect (fun m => m.forget label) fun m => m.forget label :=
  .of_done fun m => congrArg (fun vs => { m.bare with store := vs }) (m.store.delete_bare label)

/-- A number is handed back with any naming. -/
theorem typeKept_sameEffect (value : String) (naming naming' : Naming) :
    SameEffect (fun m => m.typeKept value naming) fun m => m.typeKept value naming' := by
  refine .guarded "variable" fun m m' hm => ?_
  exact congrArg
    (fun m => (none, { m with buffer := value, settled := false, intermediate := false })) hm

/-- Whether a variable is there is told by the names. -/
theorem findVariable_bare (m : Machine) (label : String) :
    m.bare.findVariable label = (m.findVariable label).map Variable.bare := by
  have hfind : m.bare.store.find? label = (m.store.find? label).map Variable.bare :=
    m.store.find?_bare label
  rw [findVariable, hfind, findVariable]
  cases m.store.find? label <;> rfl

/-- A variable that is typed brings its naming along, and its text. -/
theorem retrieve_sameEffect (label : String) :
    SameEffect (fun m => m.retrieve label) fun m => m.retrieve label := by
  intro m m' hm
  refine SameEffect.checking (f := Variable.bare) (g := Variable.bare) hm ?_ fun v v' hv => ?_
  · rw [← findVariable_bare, hm, findVariable_bare]
  · -- the two variables give the same text, and their namings are not looked at
    have hvalue : v.bare.value = v'.bare.value := congrArg Variable.value hv
    rw [show v.value = v'.value from hvalue]
    exact typeKept_sameEffect v'.value _ _ hm

/-- An edit of a naming changes nothing else. -/
theorem editNaming_effect (m : Machine) (target : Target) (change : Naming → Naming)
    (missing : Event) : (m.editNaming target change missing).effect = (none, m.bare) := by
  cases target with
  | current =>
    simp only [editNaming, editBuffer]
    split <;> rfl
  | previous =>
    simp only [editNaming, editPrevious]
    split
    · next htokens =>
      have hrow := map_bare_editLastOperand? htokens
      exact congrArg (fun ts => (none, { m.bare with committed := ts })) hrow
    · rfl

/-- An edit of a naming changes nothing on the bare machine, in the error state or outside it. -/
theorem guarded_editNaming_effect (m : Machine) (name : String) (target : Target)
    (change : Naming → Naming) (missing : Event) :
    (m.guarded name fun m => m.editNaming target change missing).effect = (none, m.bare) :=
  guarded_elim (P := fun o => o.effect = (none, m.bare)) (fun _ => rfl)
    fun _ => m.quiet.editNaming_effect target change missing

/-! ## Actions and runs -/

/-- An action that only edits a naming is not refused and changes nothing else. -/
theorem perform_renames (m : Machine) {action : Action} (h : action.NamesProperly)
    (hbare : action.bare? = none) : (m.perform action).effect = (none, m.bare) := by
  cases action with
  | label target text color =>
    obtain ⟨⟨t, ht⟩, c, hc⟩ := h
    rw [perform, editLabel, ht, hc]
    exact m.guarded_editNaming_effect "label" t _ _
  | unit target text =>
    obtain ⟨t, ht⟩ := h
    rw [perform, editUnit, ht]
    exact m.guarded_editNaming_effect "unit" t _ _
  | _ => cases hbare

/-- On machines that differ in what is attached to numbers only, an action and what is left of it
come to the same. -/
theorem perform_effect (hm : m.bare = m'.bare) {action bare : Action} (h : action.NamesProperly)
    (hbare : action.bare? = some bare) : (m.perform action).effect = (m'.perform bare).effect := by
  cases action with
  -- an action that only edits a naming has no bare one
  | label target text color => cases hbare
  | unit target text => cases hbare
  | save label value unit color =>
    obtain rfl := Option.some.inj hbare
    exact save_effect hm label value unit none h ⟨none, rfl⟩
  | retrieveSaved value naming =>
    obtain rfl := Option.some.inj hbare
    obtain ⟨n, hn⟩ := h
    rw [perform, perform, hn]
    exact typeKept_sameEffect value n .blank hm
  -- all others are their own bare actions, so each is compared with itself
  | digit key =>
    obtain rfl := Option.some.inj hbare
    exact SameEffect.checked _ (fun c => .guarded _ (.of_done fun m => m.typeKey_bare c)) hm
  | point =>
    obtain rfl := Option.some.inj hbare
    exact SameEffect.guarded _ (.of_done fun m => m.typeKey_bare '.') hm
  | parenthesis text =>
    obtain rfl := Option.some.inj hbare
    exact SameEffect.checked _ (fun mark => .guarded _ (typeMark_sameEffect mark)) hm
  | operator spelling =>
    obtain rfl := Option.some.inj hbare
    exact SameEffect.checked _ (fun op => .guarded _ (typeOperator_sameEffect op)) hm
  | calculate =>
    obtain rfl := Option.some.inj hbare
    exact calculate_sameEffect hm
  | clear =>
    obtain rfl := Option.some.inj hbare
    exact SameEffect.of_done (f := cleared) (fun _ => rfl) hm
  | delete =>
    obtain rfl := Option.some.inj hbare
    exact delete_sameEffect hm
  | toggleSign =>
    obtain rfl := Option.some.inj hbare
    exact toggleSign_sameEffect hm
  | percentage =>
    obtain rfl := Option.some.inj hbare
    exact percentage_sameEffect hm
  | load index =>
    obtain rfl := Option.some.inj hbare
    exact load_sameEffect index hm
  | forget label =>
    obtain rfl := Option.some.inj hbare
    exact forget_sameEffect label hm
  | retrieve label =>
    obtain rfl := Option.some.inj hbare
    exact retrieve_sameEffect label hm

/-- A run comes to what is left of its actions. -/
theorem effects_filterMap (hm : m.bare = m'.bare) {actions : List Action}
    (h : ∀ a ∈ actions, a.NamesProperly) :
    m.effects actions = m'.effects (actions.filterMap Action.bare?) ∧
      (m.run actions).bare = (m'.run (actions.filterMap Action.bare?)).bare := by
  induction actions generalizing m m' with
  | nil => exact ⟨rfl, hm⟩
  | cons action actions ih =>
    have haction := h action List.mem_cons_self
    have hactions : ∀ a ∈ actions, a.NamesProperly := fun a ha => h a (List.mem_cons_of_mem _ ha)
    rw [effects, run_cons]
    cases hbare : action.bare? with
    | none =>
      -- an edit has no counterpart, and leaves the machine alike
      rw [List.filterMap_cons_none hbare]
      have hrenames := congrArg Prod.snd (m.perform_renames haction hbare)
      exact ih (hrenames.trans hm) hactions
    | some bare =>
      have heffect := perform_effect hm haction hbare
      obtain ⟨hrest, hrun⟩ := ih (bare_of_effect heffect) hactions
      rw [List.filterMap_cons_some hbare, effects, run_cons, Action.bare?_bare hbare]
      exact ⟨congrArg₂ List.cons heffect hrest, hrun⟩

/-- For any limit and any two runs with targets and colours that are some, refused actions among
them, from new machines: if they are the same but for the edits of names and units, and for what
numbers are saved or handed back with, then corresponding actions are refused with the same fault
or carried out, and leave machines that are the same but for names, units and colours. -/
theorem effects_bare (limit : Nat) {actions actions' : List Action}
    (h : ∀ a ∈ actions, a.NamesProperly) (h' : ∀ a ∈ actions', a.NamesProperly)
    (hbare : actions.filterMap Action.bare? = actions'.filterMap Action.bare?) :
    (new (.ofLimit limit)).effects actions = (new (.ofLimit limit)).effects actions' ∧
      ((new (.ofLimit limit)).run actions).bare = ((new (.ofLimit limit)).run actions').bare := by
  obtain ⟨heffects, hrun⟩ := effects_filterMap (m := new (.ofLimit limit)) rfl h
  obtain ⟨heffects', hrun'⟩ := effects_filterMap (m := new (.ofLimit limit)) rfl h'
  rw [heffects, heffects', hrun, hrun', hbare]
  exact ⟨rfl, rfl⟩

/-- A named number is kept as a rate and brought back in a sum, and the last save is refused. -/
def namedRun : List Action :=
  [.digit "6", .label "current" (some "share") (.set "red"), .unit "current" (some "kg"),
    .save "rate" "6" (some "kg") (some "red"), .operator "+", .retrieve "rate",
    .label "previous" (some "part") .keep, .calculate, .save "" "6" (some "kg") none]

/-- The same without the names, the unit and the colour. -/
def plainRun : List Action :=
  [.digit "6", .save "rate" "6" none none, .operator "+", .retrieve "rate", .calculate,
    .save "" "6" none none]

/-- The two leave different machines, but not of different numbers. -/
theorem effects_bare_of_namedRun :
    (new (.ofLimit 0)).run namedRun ≠ (new (.ofLimit 0)).run plainRun ∧
      (new (.ofLimit 0)).effects namedRun = (new (.ofLimit 0)).effects plainRun ∧
      ((new (.ofLimit 0)).run namedRun).bare = ((new (.ofLimit 0)).run plainRun).bare ∧
      ((new (.ofLimit 0)).run plainRun).buffer = "12" := by
  have hnamed : ∀ a ∈ namedRun, a.NamesProperly := by
    simp only [namedRun, List.forall_mem_cons]
    exact ⟨trivial, ⟨⟨_, rfl⟩, _, rfl⟩, ⟨_, rfl⟩, ⟨_, rfl⟩, trivial, trivial, ⟨⟨_, rfl⟩, _, rfl⟩,
      trivial, ⟨_, rfl⟩, fun a ha => absurd ha List.not_mem_nil⟩
  have hplain : ∀ a ∈ plainRun, a.NamesProperly := by
    simp only [plainRun, List.forall_mem_cons]
    exact ⟨trivial, ⟨_, rfl⟩, trivial, trivial, trivial, ⟨_, rfl⟩,
      fun a ha => absurd ha List.not_mem_nil⟩
  obtain ⟨heffects, hrun⟩ := effects_bare 0 hnamed hplain rfl
  exact ⟨by decide +kernel, heffects, hrun, by decide +kernel⟩

end Machine

end Keypad
