import Keypad.Proofs.Expression.Conservation
import Keypad.Proofs.Number.NumeralLanguage
import Keypad.Variables
import Mathlib.Data.Finset.Card

/-!
# Variables are a map in the order of their last save

Variables are changed by saving and deleting, with a clock that may stand still or go back. Stamps
grow with every save all the same, so sorting puts a new variable to the front and does nothing else
(`Ordered.saved_insert`). What is kept is therefore told by the list of changes alone: for each name
by the place of its last save and that of its last deletion.

* `Ordered`           — every name is kept once, and stamps fall from the front on.
* `find?_delete`, `Ordered.find?_insert` — what a change does to the look-up of a name.
* `IsMapOf`           — what the changes made say of the variables.
* `changedBy_isMapOf` — and they say it of those that any changes to no variables leave.
-/

namespace Keypad

/-- A change to the variables. A save comes with a reading of the clock. -/
inductive Change where
  | save (now : Int) (label value : String) (unit color : Option String)
  | delete (label : String)
deriving DecidableEq

namespace Change

/-- Whether the change can be made: a save needs a name, a number and, if any, a known colour. -/
def isSound : Change → Bool
  | save _ label value _ color =>
    label != "" && Number.isReadable value && (Color.readOption color).toBool
  | delete _ => true

/-- Whether the change saves a number under the name. -/
def saves (label : String) : Change → Bool
  | save now label' value unit color =>
    label' == label && (save now label' value unit color).isSound
  | delete _ => false

/-- Whether the change deletes the variable of the name. -/
def deletes (label : String) : Change → Bool
  | save _ _ _ _ _ => false
  | delete label' => label' == label

/-- The place of the last change of a kind, if there is one. -/
def lastPlace? (kind : Change → Bool) (changes : List Change) : Option Nat :=
  (changes.zipIdx.reverse.find? fun c => kind c.1).map Prod.snd

variable {now : Int} {label label' value : String} {unit color : Option String}

theorem saves_self (h : (save now label value unit color).isSound = true) :
    (save now label value unit color).saves label = true := by
  rw [saves, beq_self_eq_true, h, Bool.and_self]

theorem saves_of_ne (h : label' ≠ label) :
    (save now label value unit color).saves label' = false := by
  rw [saves, beq_eq_false_iff_ne.2 h.symm, Bool.false_and]

/-- A save that is refused saves nothing. -/
theorem saves_of_not_isSound {change : Change} (h : change.isSound = false) (label : String) :
    change.saves label = false := by
  cases change with
  | save _ _ _ _ _ => rw [saves, h, Bool.and_false]
  | delete _ => rfl

variable {kind : Change → Bool} {changes : List Change} {change : Change}

/-- A further change is the last one of its kinds, and leaves the others where they were. -/
theorem lastPlace?_concat (kind : Change → Bool) (changes : List Change) (change : Change) :
    lastPlace? kind (changes ++ [change]) =
      if kind change then some changes.length else lastPlace? kind changes := by
  rw [lastPlace?, List.zipIdx_append, List.reverse_append, List.zipIdx_singleton,
    List.reverse_singleton, List.singleton_append, List.find?_cons]
  cases kind change with
  | true => simp
  | false => simp [lastPlace?]

/-- The last place of a kind is one of the list. -/
theorem lt_length_of_lastPlace? {i : Nat} (h : lastPlace? kind changes = some i) :
    i < changes.length := by
  obtain ⟨⟨change, i'⟩, hfind, rfl⟩ := Option.map_eq_some_iff.1 h
  have hmem := List.mem_reverse.1 (List.mem_of_find?_eq_some hfind)
  exact (List.mem_zipIdx' hmem).1

/-- A change made now comes behind all others. -/
theorem lastPlace?_lt_length (kind : Change → Bool) (changes : List Change) :
    lastPlace? kind changes < some changes.length := by
  cases h : lastPlace? kind changes with
  | none => exact Option.none_lt_some
  | some i => exact Option.some_lt_some.2 (lt_length_of_lastPlace? h)

/-- No change of the list comes behind one made now. -/
theorem not_length_lt_lastPlace? (kind : Change → Bool) (changes : List Change) :
    ¬some changes.length < lastPlace? kind changes := by
  cases h : lastPlace? kind changes with
  | none => exact Option.not_lt_none
  | some i =>
    rw [Option.some_lt_some, Nat.not_lt]
    exact Nat.le_of_lt (lt_length_of_lastPlace? h)

theorem lastPlace?_concat_of_true (h : kind change = true) :
    lastPlace? kind (changes ++ [change]) = some changes.length := by
  rw [lastPlace?_concat, h, if_pos rfl]

theorem lastPlace?_concat_of_false (h : kind change = false) :
    lastPlace? kind (changes ++ [change]) = lastPlace? kind changes := by
  rw [lastPlace?_concat, h, if_neg Bool.false_ne_true]

end Change

namespace Variables

open Change (lastPlace? lt_length_of_lastPlace? lastPlace?_lt_length not_length_lt_lastPlace?
  lastPlace?_concat_of_true lastPlace?_concat_of_false)

/-- The change, unless it is refused. -/
def attempt (vs : Variables) : Change → Except Fault Variables
  | .save now label value unit color => vs.saveAt now label value unit color
  | .delete label => .ok (vs.delete label)

/-- The variables once a change is made. If it is refused they stay as they are. -/
def changed (vs : Variables) (change : Change) : Variables :=
  match vs.attempt change with
  | .ok vs' => vs'
  | .error _ => vs

/-- The variables once some changes are made. -/
def changedBy (vs : Variables) (changes : List Change) : Variables := changes.foldl changed vs

/-! ## What a save comes to -/

variable {vs : Variables}

/-- What a save keeps, where the clock reads `now`. -/
def kept (vs : Variables) (now : Int) (label value : String) (unit : Option String)
    (color : Option Color) : Variable :=
  ⟨label, value, Naming.unlessEmpty unit, color, vs.nextStamp now⟩

/-- A save gets a stamp above all before it, wherever the clock stands. -/
theorem lt_stamp_kept (vs : Variables) (now : Int) (label value : String) (unit : Option String)
    (color : Option Color) : vs.lastStamp < (vs.kept now label value unit color).stamp :=
  Int.lt_of_lt_of_le (Int.lt_succ _) (Int.le_max_right _ _)

/-- A sound save inserts what it keeps. -/
theorem saveAt_eq_ok_iff {now : Int} {label value : String} {unit color : Option String}
    {vs' : Variables} : vs.saveAt now label value unit color = .ok vs' ↔
      label ≠ "" ∧ Number.isReadable value = true ∧
        ∃ c, Color.readOption color = .ok c ∧ vs' = vs.insert (vs.kept now label value unit c) := by
  constructor
  · intro h
    unfold saveAt at h
    split at h
    · cases h
    · next hlabel =>
      obtain ⟨x, hread, h⟩ := exists_of_bind_ok h
      obtain ⟨c, hcolor, h⟩ := exists_of_bind_ok h
      exact ⟨hlabel, Number.isReadable_iff.2 ⟨x, hread⟩, c, hcolor, (Except.ok.inj h).symm⟩
  · rintro ⟨hlabel, hvalue, c, hcolor, rfl⟩
    obtain ⟨x, hread⟩ := Number.isReadable_iff.1 hvalue
    rw [saveAt, if_neg hlabel, hread, hcolor]
    rfl

/-! ## Order -/

/-- Every name is kept once, and stamps fall from the front to the end. -/
structure Ordered (vs : Variables) : Prop where
  labels : vs.labels.Nodup
  stamps : vs.saved.Pairwise fun v w => w.stamp < v.stamp
  last : ∀ v ∈ vs.saved, v.stamp ≤ vs.lastStamp

theorem ordered_empty : empty.Ordered := ⟨.nil, .nil, fun _ h => by cases h⟩

/-- Deleting leaves the others in order. -/
theorem Ordered.delete (h : vs.Ordered) (label : String) : (vs.delete label).Ordered where
  labels := (List.filter_sublist.map _).nodup h.labels
  stamps := h.stamps.sublist List.filter_sublist
  last v hv := h.last v (List.mem_filter.1 hv).1

/-- Sorting puts a variable with a new stamp to the front and leaves the others in their order. -/
theorem Ordered.saved_insert (h : vs.Ordered) {v : Variable} (hv : vs.lastStamp < v.stamp) :
    (vs.insert v).saved = v :: (vs.delete v.label).saved := by
  have hdelete := h.delete v.label
  have hordered : (v :: (vs.delete v.label).saved).Pairwise fun v w => w.stamp < v.stamp :=
    .cons (fun w hw => Int.lt_of_le_of_lt (hdelete.last w hw) hv) hdelete.stamps
  have hperm : (vs.insert v).saved.Perm (v :: (vs.delete v.label).saved) :=
    (List.mergeSort_perm _ _).trans (List.perm_append_singleton _ _)
  have hsorted : (vs.insert v).saved.Pairwise fun v w => w.stamp ≤ v.stamp := by
    have htrans : ∀ a b c : Variable, decide (b.stamp ≤ a.stamp) = true →
        decide (c.stamp ≤ b.stamp) = true → decide (c.stamp ≤ a.stamp) = true := by
      simp only [decide_eq_true_eq]
      omega
    have htotal : ∀ a b : Variable,
        (decide (b.stamp ≤ a.stamp) || decide (a.stamp ≤ b.stamp)) = true := by
      simp only [Bool.or_eq_true, decide_eq_true_eq]
      omega
    exact (List.pairwise_mergeSort htrans htotal _).imp of_decide_eq_true
  -- no two stamps are the same, so there is only one order
  have hstamps : ((v :: (vs.delete v.label).saved).map Variable.stamp).Nodup :=
    List.pairwise_map.2 (hordered.imp fun hlt => (Int.ne_of_lt hlt).symm)
  refine hperm.eq_of_pairwise (fun a b ha hb hba hab => ?_) hsorted (hordered.imp Int.le_of_lt)
  exact List.inj_on_of_nodup_map hstamps (hperm.mem_iff.1 ha) hb (Int.le_antisymm hab hba)

theorem mem_delete {v : Variable} {label : String} :
    v ∈ (vs.delete label).saved ↔ v ∈ vs.saved ∧ v.label ≠ label := by
  rw [delete, List.mem_filter, decide_eq_true_iff]

/-- Saving with a new stamp leaves the variables in order. -/
theorem Ordered.insert (h : vs.Ordered) {v : Variable} (hv : vs.lastStamp < v.stamp) :
    (vs.insert v).Ordered := by
  have hdelete := h.delete v.label
  have hlast : ∀ w ∈ (vs.delete v.label).saved, w.stamp < v.stamp := fun w hw =>
    Int.lt_of_le_of_lt (hdelete.last w hw) hv
  constructor
  · rw [Variables.labels, h.saved_insert hv]
    refine .cons (fun hlabel => ?_) hdelete.labels
    obtain ⟨w, hw, heq⟩ := List.mem_map.1 hlabel
    exact (mem_delete.1 hw).2 heq
  · rw [h.saved_insert hv]
    exact .cons hlast hdelete.stamps
  · rw [h.saved_insert hv]
    exact List.forall_mem_cons.2 ⟨Int.le_refl _, fun w hw => Int.le_of_lt (hlast w hw)⟩

/-- Every change leaves them in order. -/
theorem Ordered.changed (h : vs.Ordered) (change : Change) : (vs.changed change).Ordered := by
  unfold Variables.changed
  split
  · next vs' hvs' =>
    cases change with
    | save now label value unit color =>
      obtain ⟨-, -, c, -, rfl⟩ := saveAt_eq_ok_iff.1 hvs'
      exact h.insert (vs.lt_stamp_kept _ _ _ _ _)
    | delete label =>
      obtain rfl := Except.ok.inj hvs'
      exact h.delete label
  · exact h

/-! ## Looking a name up -/

/-- What a look-up finds is kept, under the name that was asked for. -/
theorem mem_of_find? {label : String} {v : Variable} (h : vs.find? label = some v) :
    v ∈ vs.saved ∧ v.label = label :=
  ⟨List.mem_of_find?_eq_some h,
    beq_iff_eq.1 (List.find?_some (p := fun v : Variable => v.label == label) h)⟩

theorem contains_eq (vs : Variables) (label : String) :
    vs.contains label = (vs.find? label).isSome := by
  rw [Bool.eq_iff_iff, Variables.contains, find?, List.find?_isSome, List.any_eq_true]

/-- A deleted name is not found, and any other as before. -/
theorem find?_delete (vs : Variables) (label label' : String) :
    (vs.delete label').find? label = if label = label' then none else vs.find? label := by
  rw [find?, delete, List.find?_filter]
  split
  · next heq =>
    subst heq
    simp
  · next hne =>
    congr 1
    funext v
    by_cases hv : v.label = label
    · simp [hv, hne]
    · simp [hv]

/-- The name that is saved under finds what was saved, and any other what it found before. -/
theorem Ordered.find?_insert (h : vs.Ordered) {v : Variable} (hv : vs.lastStamp < v.stamp)
    (label : String) :
    (vs.insert v).find? label = if label = v.label then some v else vs.find? label := by
  have hfind := vs.find?_delete label v.label
  rw [find?] at hfind
  rw [find?, h.saved_insert hv, List.find?_cons]
  by_cases heq : label = v.label
  · simp [heq]
  · rw [if_neg heq] at hfind ⊢
    rw [beq_eq_false_iff_ne.2 (Ne.symm heq), hfind]

/-- The ways to ask for variables agree: what a look-up finds, which names there are and how many,
and what is listed. -/
structure Agrees (vs : Variables) : Prop where
  find : ∀ label v, vs.find? label = some v ↔ v ∈ vs.saved ∧ v.label = label
  contains : ∀ label, vs.contains label = (vs.find? label).isSome
  labels : ∀ label, label ∈ vs.labels ↔ vs.contains label = true
  size : vs.size = vs.labels.toFinset.card

/-- Where every name is kept once, the ways to ask agree. -/
theorem Ordered.agrees (h : vs.Ordered) : vs.Agrees where
  find label v := by
    refine ⟨mem_of_find?, ?_⟩
    rintro ⟨hv, rfl⟩
    have hsome : (vs.find? v.label).isSome = true :=
      List.find?_isSome.2 ⟨v, hv, beq_self_eq_true _⟩
    obtain ⟨w, hw⟩ := Option.isSome_iff_exists.1 hsome
    obtain ⟨hmem, hlabel⟩ := mem_of_find? hw
    -- the look-up finds one of the name, and there is no other
    rw [hw, List.inj_on_of_nodup_map h.labels hmem hv hlabel]
  contains label := vs.contains_eq label
  labels label := by simp [Variables.labels, Variables.contains]
  size := by
    rw [List.toFinset_card_of_nodup h.labels, Variables.labels, List.length_map, Variables.size]

/-! ## The map that changes leave -/

/-- The variable is what the last save under its name asked for. -/
def HoldsLastSave (changes : List Change) (v : Variable) : Prop :=
  ∃ i now unit color,
    lastPlace? (Change.saves v.label) changes = some i ∧
      changes[i]? = some (.save now v.label v.value unit color) ∧
      v.unit = Naming.unlessEmpty unit ∧ Color.readOption color = .ok v.color

/-- The variables are what the changes say. A name is there if it was last saved after it was last
deleted, with the value, unit and colour of that save, and the names come in the order of their last
saves, latest first. -/
structure IsMapOf (vs : Variables) (changes : List Change) : Prop where
  sound : ∀ v ∈ vs.saved, v.label ≠ "" ∧ Number.isReadable v.value = true
  present : ∀ label, vs.contains label = true ↔
    lastPlace? (Change.deletes label) changes < lastPlace? (Change.saves label) changes
  holds : ∀ v ∈ vs.saved, HoldsLastSave changes v
  order : vs.saved.Pairwise fun v w =>
    lastPlace? (Change.saves w.label) changes <
      lastPlace? (Change.saves v.label) changes

variable {changes : List Change} {change : Change} {now : Int} {label value : String}
  {unit color : Option String} {c : Option Color}

/-- Without changes there are no variables. -/
theorem isMapOf_empty : empty.IsMapOf [] where
  sound _ h := by cases h
  present _ := iff_of_false Bool.false_ne_true id
  holds _ h := by cases h
  order := .nil

/-- A variable keeps what its last save asked for while others are saved. -/
theorem HoldsLastSave.concat {v : Variable} (h : HoldsLastSave changes v)
    (hsaves : change.saves v.label = false) : HoldsLastSave (changes ++ [change]) v := by
  obtain ⟨i, now, unit, color, hplace, hget, hnaming⟩ := h
  refine ⟨i, now, unit, color, (lastPlace?_concat_of_false hsaves).trans hplace, ?_, hnaming⟩
  rw [List.getElem?_append_left (lt_length_of_lastPlace? hplace), hget]

/-- A change that is refused says nothing. -/
theorem IsMapOf.concat (h : vs.IsMapOf changes) (hsaves : ∀ label, change.saves label = false)
    (hdeletes : ∀ label, change.deletes label = false) : vs.IsMapOf (changes ++ [change]) where
  sound := h.sound
  present label := by
    rw [lastPlace?_concat_of_false (hsaves label), lastPlace?_concat_of_false (hdeletes label)]
    exact h.present label
  holds v hv := (h.holds v hv).concat (hsaves _)
  order := h.order.imp fun hlt => by
    rwa [lastPlace?_concat_of_false (hsaves _), lastPlace?_concat_of_false (hsaves _)]

/-- Deleting a name leaves the map that the changes say. -/
theorem IsMapOf.delete (h : vs.IsMapOf changes) (label : String) :
    (vs.delete label).IsMapOf (changes ++ [.delete label]) where
  sound v hv := h.sound v (mem_delete.1 hv).1
  present label' := by
    have hsaves : (Change.delete label).saves label' = false := rfl
    rw [contains_eq, find?_delete, lastPlace?_concat_of_false hsaves]
    -- a name that is deleted now is not there; for any other the last places stay
    by_cases heq : label' = label
    · have hdeletes : (Change.delete label).deletes label' = true := beq_iff_eq.2 heq.symm
      rw [if_pos heq, lastPlace?_concat_of_true hdeletes]
      exact iff_of_false Bool.false_ne_true (not_length_lt_lastPlace? _ _)
    · have hdeletes : (Change.delete label).deletes label' = false :=
        beq_eq_false_iff_ne.2 (Ne.symm heq)
      rw [if_neg heq, lastPlace?_concat_of_false hdeletes, ← contains_eq]
      exact h.present label'
  holds v hv := (h.holds v (mem_delete.1 hv).1).concat rfl
  order := (h.order.sublist List.filter_sublist).imp fun hlt => by
    rwa [lastPlace?_concat_of_false rfl, lastPlace?_concat_of_false rfl]

/-- What a sound save keeps is what it asked for. -/
theorem holdsLastSave_kept (hsound : (Change.save now label value unit color).isSound = true)
    (hcolor : Color.readOption color = .ok c) :
    HoldsLastSave (changes ++ [.save now label value unit color])
      (vs.kept now label value unit c) := by
  exact ⟨changes.length, now, unit, color, lastPlace?_concat_of_true (Change.saves_self hsound),
    List.getElem?_concat_length, rfl, hcolor⟩

/-- What a sound save keeps comes in front, and is the only one of its name. -/
theorem IsMapOf.insert (hordered : vs.Ordered) (h : vs.IsMapOf changes)
    (hsound : (Change.save now label value unit color).isSound = true)
    (hcolor : Color.readOption color = .ok c) :
    (vs.insert (vs.kept now label value unit c)).IsMapOf
      (changes ++ [.save now label value unit color]) := by
  have hstamp := vs.lt_stamp_kept now label value unit c
  have hsaved := hordered.saved_insert hstamp
  have hsaves := Change.saves_self hsound
  have hother : ∀ v ∈ (vs.delete label).saved,
      lastPlace? (Change.saves v.label) (changes ++ [.save now label value unit color]) =
        lastPlace? (Change.saves v.label) changes := fun v hv =>
    lastPlace?_concat_of_false (Change.saves_of_ne (mem_delete.1 hv).2)
  constructor
  · rw [hsaved]
    refine List.forall_mem_cons.2 ⟨?_, fun v hv => h.sound v (mem_delete.1 hv).1⟩
    simp only [Change.isSound, Bool.and_eq_true, bne_iff_ne] at hsound
    exact hsound.1
  · intro label'
    have hfind : (vs.insert (vs.kept now label value unit c)).find? label' =
        if label' = label then some (vs.kept now label value unit c) else vs.find? label' :=
      hordered.find?_insert hstamp label'
    rw [contains_eq, hfind, lastPlace?_concat_of_false rfl]
    by_cases heq : label' = label
    · rw [if_pos heq, heq, lastPlace?_concat_of_true hsaves]
      exact iff_of_true rfl (lastPlace?_lt_length _ _)
    · rw [if_neg heq, lastPlace?_concat_of_false (Change.saves_of_ne heq), ← contains_eq]
      exact h.present label'
  · rw [hsaved]
    refine List.forall_mem_cons.2 ⟨holdsLastSave_kept hsound hcolor, fun v hv => ?_⟩
    obtain ⟨hv, hne⟩ := mem_delete.1 hv
    exact (h.holds v hv).concat (Change.saves_of_ne hne)
  · rw [hsaved]
    refine .cons (fun v hv => ?_) ?_
    · rw [hother v hv]
      exact (lastPlace?_lt_length _ _).trans_eq (lastPlace?_concat_of_true hsaves).symm
    · refine (h.order.sublist List.filter_sublist).imp_of_mem fun hv hw hlt => ?_
      rwa [hother _ hv, hother _ hw]

/-- A change can be made exactly if it is sound, whatever the variables are. -/
theorem isSound_iff (vs : Variables) (change : Change) :
    change.isSound = true ↔ ∃ vs', vs.attempt change = .ok vs' := by
  cases change with
  | delete label => exact iff_of_true rfl ⟨_, rfl⟩
  | save now label value unit color =>
    have hcolor : (Color.readOption color).toBool = true ↔ ∃ c, Color.readOption color = .ok c := by
      cases Color.readOption color with
      | ok c => exact iff_of_true rfl ⟨c, rfl⟩
      | error fault => exact iff_of_false Bool.false_ne_true fun ⟨_, h⟩ => by cases h
    rw [Change.isSound, Bool.and_eq_true, Bool.and_eq_true, bne_iff_ne, hcolor]
    constructor
    · rintro ⟨⟨hlabel, hvalue⟩, c, hc⟩
      exact ⟨_, saveAt_eq_ok_iff.2 ⟨hlabel, hvalue, c, hc, rfl⟩⟩
    · rintro ⟨vs', hvs'⟩
      obtain ⟨hlabel, hvalue, c, hc, -⟩ := saveAt_eq_ok_iff.1 hvs'
      exact ⟨⟨hlabel, hvalue⟩, c, hc⟩

/-- Every change leaves the map that the changes say, whether or not it is refused. -/
theorem IsMapOf.changed (hordered : vs.Ordered) (h : vs.IsMapOf changes) (change : Change) :
    (vs.changed change).IsMapOf (changes ++ [change]) := by
  cases hattempt : vs.attempt change with
  | ok vs' =>
    rw [Variables.changed, hattempt]
    cases change with
    | delete label =>
      obtain rfl := Except.ok.inj hattempt
      exact h.delete label
    | save now label value unit color =>
      have hsound := (isSound_iff vs _).2 ⟨vs', hattempt⟩
      obtain ⟨-, -, c, hcolor, rfl⟩ := saveAt_eq_ok_iff.1 hattempt
      exact h.insert hordered hsound hcolor
  | error fault =>
    rw [Variables.changed, hattempt]
    -- a refused change was not sound, so the changes say nothing of it
    have hunsound : change.isSound = false := Bool.eq_false_iff.2 fun hsound => by
      obtain ⟨vs', hvs'⟩ := (isSound_iff vs change).1 hsound
      cases hattempt.symm.trans hvs'
    cases change with
    | delete label => cases hattempt
    | save now label value unit color =>
      exact h.concat (Change.saves_of_not_isSound hunsound) fun _ => rfl

/-- Order and map are kept along any list of changes. -/
theorem ordered_isMapOf_changedBy (changes : List Change) :
    (empty.changedBy changes).Ordered ∧ (empty.changedBy changes).IsMapOf changes := by
  induction changes using List.reverseRecOn with
  | nil => exact ⟨ordered_empty, isMapOf_empty⟩
  | append_singleton changes change ih =>
    rw [changedBy, List.foldl_concat]
    exact ⟨ih.1.changed change, ih.2.changed ih.1 change⟩

/-- Whatever changes are made to no variables and whatever the clock reads: every name is kept once
and stamps fall from the front to the end, the variables are the map that the changes say, the ways
to ask for them agree, and a further change is refused unless it is sound, and then leaves all of
them as they are. -/
theorem changedBy_isMapOf (changes : List Change) :
    let vs := empty.changedBy changes
    vs.Ordered ∧ vs.IsMapOf changes ∧ vs.Agrees ∧
      ∀ change, (change.isSound = true ↔ ∃ vs', vs.attempt change = .ok vs') ∧
        ∀ fault, vs.attempt change = .error fault → vs.changed change = vs := by
  obtain ⟨hordered, hmap⟩ := ordered_isMapOf_changedBy changes
  refine ⟨hordered, hmap, hordered.agrees, fun change => ⟨isSound_iff _ change, fun fault h => ?_⟩⟩
  rw [changed, h]

end Variables

end Keypad
