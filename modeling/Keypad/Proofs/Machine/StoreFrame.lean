import Keypad.Proofs.Machine.Frame
import Keypad.Proofs.Variables.LastSave

/-!
# What actions leave of the variables

Only saving and forgetting touch the variables, each the one of its name. A unit that is given is
never the empty text, which stands for no unit, unless a host brings a naming of its own.

* `perform_storeMove` — what an action comes to for the variables.
* `StoreMove.filed`   — variables stay in order, and units are not empty.
* `StoreMove.find?`   — a look-up finds what it found before.
-/

namespace Keypad

/-- Whether the action saves the variable of the name or gives it up. -/
def Action.Touches (name : String) : Action → Prop
  | .save name' _ _ _ => name' = name
  | .forget name' => name' = name
  | _ => False

/-- Whether a host brings a naming of its own with the action. -/
def Action.BringsNaming : Action → Prop
  | .retrieveSaved _ _ => True
  | _ => False

/-- Whether `p` holds of the number that a host hands over with the action. -/
def Action.Brings (p : String → Prop) : Action → Prop
  | .save _ value _ _ | .retrieveSaved value _ => p value
  | _ => True

/-- What brings no number brings no naming either. -/
theorem Action.Brings.not_bringsNaming {action : Action} (h : action.Brings fun _ => False) :
    ¬action.BringsNaming := by
  cases action with
  | retrieveSaved value naming => exact h.elim
  | _ => exact id

/-- The empty text never stays one. -/
theorem Naming.unlessEmpty_ne (text : Option String) : Naming.unlessEmpty text ≠ some "" := by
  intro h
  obtain ⟨-, hne⟩ := Option.filter_eq_some_iff.1 h
  exact of_decide_eq_true hne rfl

/-- Any other text stays what it is. -/
theorem Naming.unlessEmpty_of_ne {text : Option String} (h : text ≠ some "") :
    Naming.unlessEmpty text = text := by
  cases text with
  | none => rfl
  | some text => exact Option.filter_some_pos (decide_eq_true fun heq => h (heq ▸ rfl))

namespace Machine

open Outcome

/-- The variables are in order, and neither one of them nor the number being typed has an empty
unit. -/
structure Filed (m : Machine) : Prop where
  ordered : m.store.Ordered
  units : ∀ v ∈ m.store.saved, v.unit ≠ some ""
  unit : m.naming.unit ≠ some ""

/-- From `m` to `m'` the variables stay as they are, and the number being typed is given no empty
unit. -/
structure StoreFrame (m m' : Machine) : Prop where
  store : m'.store = m.store
  unit : m.Filed → m'.naming.unit ≠ some ""

variable {m m' m'' : Machine}

/-- A new machine has no variables, and no unit on its number. -/
theorem filed_new (limit : Nat) : (new (.ofLimit limit)).Filed where
  ordered := Variables.ordered_empty
  units _ h := by cases h
  unit := nofun

namespace StoreFrame

/-- What frames the variables keeps them in order. -/
theorem filed (h : StoreFrame m m') (hm : m.Filed) : m'.Filed where
  ordered := h.store ▸ hm.ordered
  units := h.store ▸ hm.units
  unit := h.unit hm

theorem trans (h : StoreFrame m m') (h' : StoreFrame m' m'') : StoreFrame m m'' where
  store := h'.store.trans h.store
  unit hm := h'.unit (h.filed hm)

/-- The number being typed keeps its unit, or comes to have none. -/
theorem of_unit (hstore : m'.store = m.store)
    (hunit : m'.naming.unit = m.naming.unit ∨ m'.naming.unit = none) : StoreFrame m m' where
  store := hstore
  unit hm := by
    rcases hunit with hunit | hunit
    · exact hunit ▸ hm.unit
    · exact hunit ▸ nofun

/-- Typing a key frames the variables: it clears the unit or keeps it. -/
theorem typeKey (m : Machine) (key : Char) : StoreFrame m (m.typeKey key) := by
  unfold Machine.typeKey retype
  split
  · exact .of_unit rfl (.inr rfl)
  · split <;> exact .of_unit rfl (.inl rfl)

/-- The parts that actions are made of all frame the variables. -/
theorem framing : Framing StoreFrame where
  refl _ := .of_unit rfl (.inl rfl)
  trans := trans
  quiet _ := .of_unit rfl (.inl rfl)
  typeKey := typeKey
  retext _ _ := .of_unit rfl (.inl rfl)
  row _ _ _ _ := .of_unit rfl (.inl rfl)
  appendOperator _ _ := .of_unit rfl (.inr rfl)
  enterError _ := .of_unit rfl (.inr rfl)
  cleared _ := .of_unit rfl (.inr rfl)

/-- An edit of a naming that gives no empty unit frames the variables. -/
theorem editNaming {change : Naming → Naming}
    (hchange : ∀ n, (change n).unit = n.unit ∨ (change n).unit ≠ some "") (m : Machine)
    (target : Target) (missing : Event) :
    StoreFrame m (m.editNaming target change missing).machine := by
  cases target with
  | current =>
    simp only [Machine.editNaming, editBuffer]
    split
    · exact .of_unit rfl (.inl rfl)
    · refine ⟨rfl, fun hm => ?_⟩
      rcases hchange m.naming with hunit | hunit
      · exact hunit ▸ hm.unit
      · exact hunit
  | previous => exact framing.editPrevious m change missing

end StoreFrame

/-- What an action comes to for the variables: it leaves them alone, or it inserts one or deletes
one and does nothing else. -/
inductive StoreMove (action : Action) (m : Machine) : Machine → Prop where
  | leave {m' : Machine} (h : StoreFrame m m') : StoreMove action m m'
  | insert {v : Variable} (hlast : m.store.lastStamp < v.stamp) (hunit : v.unit ≠ some "")
      (htouches : action.Touches v.label) :
      StoreMove action m { m with store := m.store.insert v }
  | delete {name : String} (htouches : action.Touches name) :
      StoreMove action m { m with store := m.store.delete name }

/-- An action inserts or deletes the variable that it touches, and gives no empty unit if it brings
no naming. -/
theorem perform_storeMove (m : Machine) {action : Action} (hbrings : ¬action.BringsNaming) :
    StoreMove action m (m.perform action).machine := by
  have hframing := StoreFrame.framing
  cases action with
  | calculate => exact .leave (hframing.calculate (fun _ _ => .of_unit rfl (.inr rfl)) m)
  | label target text color =>
    refine .leave (hframing.checking fun target => hframing.checking fun color => ?_)
    refine hframing.guarded fun m => StoreFrame.editNaming ?_ m target _
    exact fun _ => .inl rfl
  | unit target text =>
    refine .leave (hframing.checking fun target => ?_)
    refine hframing.guarded fun m => StoreFrame.editNaming ?_ m target _
    exact fun _ => .inr (Naming.unlessEmpty_ne text)
  | save name value unit color =>
    refine checking_elim (P := fun o => StoreMove _ m o.machine)
      (fun _ => .leave (hframing.refl m)) fun vs hvs => ?_
    obtain ⟨-, -, c, -, rfl⟩ := Variables.saveAt_eq_ok_iff.1 hvs
    exact .insert (m.store.lt_stamp_kept 0 name value unit c) (Naming.unlessEmpty_ne unit) rfl
  | forget name => exact .delete rfl
  | retrieve name =>
    refine .leave ?_
    refine checking_elim (P := fun o => StoreFrame m o.machine) (fun _ => hframing.refl m) ?_
    intro v hv
    have hmem := mem_saved_of_findVariable hv
    refine guarded_elim (P := fun o => StoreFrame m o.machine) (fun _ => hframing.quiet m) ?_
    exact fun _ => ⟨rfl, fun hm => hm.units v hmem⟩
  | retrieveSaved value naming => exact absurd trivial hbrings
  | _ => exact .leave (hframing.perform m trivial)

/-- A move of an action that touches no name leaves the variables alone. -/
theorem StoreMove.store_eq {action : Action} (h : StoreMove action m m')
    (htouches : ∀ name, ¬action.Touches name) : m'.store = m.store := by
  cases h with
  | leave h => exact h.store
  | insert _ _ h => exact absurd h (htouches _)
  | delete h => exact absurd h (htouches _)

/-- An action that touches no variable leaves them alone. -/
theorem perform_store {action : Action} (h : ∀ name, ¬action.Touches name) :
    (m.perform action).machine.store = m.store := by
  by_cases hbrings : action.BringsNaming
  · cases action with
    | retrieveSaved value naming =>
      exact checking_elim (P := fun o => o.machine.store = m.store) (fun _ => rfl) fun _ _ =>
        guarded_elim (P := fun o => o.machine.store = m.store) (fun _ => rfl) fun _ => rfl
    | _ => exact hbrings.elim
  · exact (m.perform_storeMove hbrings).store_eq h

/-- Every move keeps the variables in order and their units non-empty. -/
theorem StoreMove.filed {action : Action} (h : StoreMove action m m') (hm : m.Filed) :
    m'.Filed := by
  cases h with
  | leave h => exact h.filed hm
  | insert hlast hunit _ =>
    refine ⟨hm.ordered.insert hlast, ?_, hm.unit⟩
    dsimp only
    rw [hm.ordered.saved_insert hlast]
    exact List.forall_mem_cons.2 ⟨hunit, fun v hv => hm.units v (Variables.mem_delete.1 hv).1⟩
  | delete _ =>
    exact ⟨hm.ordered.delete _, fun v hv => hm.units v (Variables.mem_delete.1 hv).1, hm.unit⟩

/-- A look-up finds what it found before, unless the variable of its name is touched. -/
theorem StoreMove.find? {action : Action} (h : StoreMove action m m') (hm : m.Filed) {name : String}
    (hname : ¬action.Touches name) : m'.store.find? name = m.store.find? name := by
  cases h with
  | leave h => rw [h.store]
  | @insert v hlast _ htouches =>
    refine (hm.ordered.find?_insert hlast name).trans (if_neg ?_)
    rintro rfl
    exact hname htouches
  | @delete name' htouches =>
    refine (m.store.find?_delete name name').trans (if_neg ?_)
    rintro rfl
    exact hname htouches

end Machine

end Keypad
