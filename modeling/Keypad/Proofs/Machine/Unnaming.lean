import Keypad.Proofs.Machine.Erasing

/-!
# Editing a named number

A key of a number that changes the text in the buffer takes the name off, which was given to the
number that stood there before; unit and colour stay. A key that is ignored leaves the name. The
delete key changes the text as well, but it never touches the name: a number that is left of a named
one keeps its name, and is kept under it as an operand or a variable.

* `perform_unnames_iff` — which edits of a named number treat its name as they should.
-/

namespace Keypad

/-- Whether the action edits the number being typed. -/
def Action.Edits : Action → Prop
  | .digit _ | .point | .delete => True
  | _ => False

namespace Buffer

/-- Erasing changes every text but the zero of the start. -/
theorem erase_eq_self_iff {text : String} : erase text = text ↔ text = start := by
  constructor
  · intro h
    rcases erase_step text with hstart | htrims
    · exact h.symm.trans hstart
    · have hshorter := htrims.shorter
      rw [h] at hshorter
      exact absurd hshorter (Nat.lt_irrefl _)
  · rintro rfl
    decide +kernel

end Buffer

namespace Machine

open Outcome

variable {m m' : Machine}

/-- From `m` to `m'` the name goes if the text changes, and nothing else does of the naming; if the
text stays, all of the naming stays. -/
structure Unnames (m m' : Machine) : Prop where
  changed : m'.buffer ≠ m.buffer → m'.naming = { m.naming with label := none }
  same : m'.buffer = m.buffer → m'.naming = m.naming

theorem Unnames.refl (m : Machine) : m.Unnames m := ⟨fun h => absurd rfl h, fun _ => rfl⟩

theorem Unnames.of_quiet (h : m.quiet.Unnames m') : m.Unnames m' := ⟨h.changed, h.same⟩

/-- Another text comes without the name. -/
theorem retype_unnames {text : String} (h : text ≠ m.buffer) : m.Unnames (m.retype text) :=
  ⟨fun _ => rfl, fun htext => absurd htext h⟩

/-- A key of a number is such an edit: the keys without effect are those that leave the text. -/
theorem typeKey_unnames (hm : m.failed = false) (hs : m.settled = false) (name : String)
    (key : Char) : m.Unnames (m.guarded name fun m => done (m.typeKey key)).machine := by
  have hs : m.quiet.settled = false := hs
  rw [guarded_of_not_failed hm]
  refine Unnames.of_quiet ?_
  simp only [done, typeKey, hs, Bool.false_eq_true, if_false]
  split
  · exact .refl _
  · next hkey => exact retype_unnames fun htext => hkey (Buffer.ignores_iff.2 htext)

/-- The delete key leaves all of the naming. -/
theorem delete_naming (hm : m.failed = false) (hs : m.settled = false) :
    m.delete.machine.naming = m.naming := by
  rw [delete_of_typing hm hs]
  dsimp only
  rfl

/-- The delete key leaves the name, so it is one only where there is nothing to erase. -/
theorem delete_unnames_iff (hm : m.failed = false) (hs : m.settled = false)
    (hlabel : m.naming.label ≠ none) : m.Unnames m.delete.machine ↔ m.buffer = Buffer.start := by
  have hnaming := delete_naming hm hs
  rw [← Buffer.erase_eq_self_iff, ← (delete_erases hm hs).2.2]
  refine ⟨fun h => ?_, fun htext => ⟨fun h => absurd htext h, fun _ => hnaming⟩⟩
  -- the name is still there, so the text must be the same
  by_contra hne
  exact hlabel (congrArg Naming.label (hnaming.symm.trans (h.changed hne)))

/-- Outside the error state, where a named number is being typed: a digit, the point and the delete
key take its name off if they change its text, and leave the naming as it is if they do not, except
that the delete key leaves the name in any case; that makes the difference on every text but `0`.
None of them touches unit and colour. -/
theorem perform_unnames_iff (hm : m.failed = false) (hs : m.settled = false)
    (hlabel : m.naming.label ≠ none) {action : Action} (h : action.Edits) :
    (m.Unnames (m.perform action).machine ↔ ¬(action = .delete ∧ m.buffer ≠ "0")) ∧
      (action = .delete → (m.perform action).machine.naming = m.naming) ∧
      (m.perform action).machine.naming.unit = m.naming.unit ∧
      (m.perform action).machine.naming.color = m.naming.color := by
  -- what treats the name as it should is no delete key, and leaves unit and colour
  have hedit (hne : action ≠ .delete) (hunnames : m.Unnames (m.perform action).machine) :
      (m.Unnames (m.perform action).machine ↔ ¬(action = .delete ∧ m.buffer ≠ "0")) ∧
        (action = .delete → (m.perform action).machine.naming = m.naming) ∧
        (m.perform action).machine.naming.unit = m.naming.unit ∧
        (m.perform action).machine.naming.color = m.naming.color := by
    have hiff := iff_of_true hunnames fun hdelete : action = .delete ∧ m.buffer ≠ "0" =>
      hne hdelete.1
    refine ⟨hiff, fun hdelete => absurd hdelete hne, ?_⟩
    by_cases htext : (m.perform action).machine.buffer = m.buffer
    · rw [hunnames.same htext]
      exact ⟨rfl, rfl⟩
    · rw [hunnames.changed htext]
      exact ⟨rfl, rfl⟩
  cases action with
  | digit key =>
    refine hedit nofun ?_
    exact checking_elim (P := fun o => m.Unnames o.machine) (fun _ => .refl m) fun c _ =>
      typeKey_unnames hm hs "digit" c
  | point => exact hedit nofun (typeKey_unnames hm hs "dot" '.')
  | delete =>
    have hnaming := delete_naming hm hs
    have hiff := delete_unnames_iff hm hs hlabel
    refine ⟨?_, fun _ => hnaming, congrArg Naming.unit hnaming, congrArg Naming.color hnaming⟩
    rw [perform, hiff, not_and, not_not]
    exact ⟨fun h _ => h, fun h => h rfl⟩
  | _ => exact absurd h id

/-- Twelve kilograms of something that has a name. -/
def namedTwelve : Machine :=
  (new (.ofLimit 0)).run [.digit "1", .digit "2", .label "current" (some "flour") (.set "white"),
    .unit "current" (some "kg")]

/-- The point takes the name off twelve, and the delete key leaves the name to the one that is left
of it. -/
theorem perform_unnames_iff_of_namedTwelve :
    (namedTwelve.failed = false ∧ namedTwelve.settled = false ∧ namedTwelve.naming.label ≠ none) ∧
      (namedTwelve.perform .point).machine.naming = ⟨none, some "kg", some .white⟩ ∧
      ¬namedTwelve.Unnames (namedTwelve.perform .delete).machine ∧
      (namedTwelve.perform .delete).machine.buffer = "1" ∧
      (namedTwelve.perform .delete).machine.naming = ⟨some "flour", some "kg", some .white⟩ := by
  have hm : namedTwelve.failed = false := by decide +kernel
  have hs : namedTwelve.settled = false := by decide +kernel
  have hnaming : namedTwelve.naming = ⟨some "flour", some "kg", some .white⟩ := by decide +kernel
  have hlabel : namedTwelve.naming.label ≠ none := by rw [hnaming]; nofun
  have hbuffer : namedTwelve.buffer ≠ "0" := by decide +kernel
  have htext : (namedTwelve.perform .point).machine.buffer ≠ namedTwelve.buffer := by
    decide +kernel
  obtain ⟨hpoint, -⟩ := perform_unnames_iff hm hs hlabel (show Action.point.Edits from trivial)
  obtain ⟨hdelete, hkept, -⟩ :=
    perform_unnames_iff hm hs hlabel (show Action.delete.Edits from trivial)
  have hunnamed := (hpoint.2 fun h => by cases h.1).changed htext
  rw [hnaming] at hunnamed hkept
  exact ⟨⟨hm, hs, hlabel⟩, hunnamed, fun h => hdelete.1 h ⟨rfl, hbuffer⟩, by decide +kernel,
    hkept rfl⟩

end Machine

end Keypad
