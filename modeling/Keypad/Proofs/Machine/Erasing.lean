import Keypad.Proofs.Machine.Legible

/-!
# Erasing

Erasing never puts anything new into the buffer: what it leaves is a front of the text without an
exponent, or the zero of the start, and in either case a number. So the delete key repairs any
buffer, and pressed once for each character it gets to the zero. A digit that was typed behind a
number is taken back by it.

* `erase_step`     — what one step leaves.
* `iterate_erase`  — where the steps lead.
* `delete_repairs` — the delete key on any machine that takes digits.
-/

namespace Keypad

open Keypad.Number

namespace Buffer

variable {text : String}

/-! ## The text without its end -/

theorem isPrefix_dropLast (text : String) : (dropLast text).toList <+: text.toList := by
  rw [dropLast, String.toList_ofList]
  exact List.dropLast_prefix _

/-- Cutting an exponent off leaves a front of the text. -/
theorem isPrefix_cut (text : String) : (cut text).toList <+: text.toList := by
  unfold cut
  split
  · rw [String.toList_ofList]
    exact List.takeWhile_prefix _
  · exact isPrefix_dropLast text

/-- The exponent goes as a whole. -/
theorem hasExponent_cut (text : String) : hasExponent (cut text).toList = false := by
  unfold cut
  split
  · rw [String.toList_ofList, hasExponent, List.any_eq_false]
    intro c hc
    simpa using List.mem_takeWhile_imp hc
  · next h =>
    rw [dropLast, String.toList_ofList, hasExponent, List.any_eq_false]
    rw [hasExponent, Bool.not_eq_true, List.any_eq_false] at h
    exact fun c hc => h c (List.dropLast_subset _ hc)

/-- Something is always cut off. -/
theorem length_cut_lt (h : text ≠ "") : (cut text).length < text.length := by
  have hne : text.toList ≠ [] := fun hnil => h (String.toList_eq_nil_iff.1 hnil)
  have hne' : (cut text).toList ≠ text.toList := by
    unfold cut
    split
    · next hexp =>
      -- a front that was taken as long as there is no letter of an exponent is not all of the text
      rw [String.toList_ofList]
      intro heq
      obtain ⟨c, hc, hletter⟩ := List.any_eq_true.1 hexp
      have hfront := List.mem_takeWhile_imp (heq.symm ▸ hc)
      rw [hletter] at hfront
      cases hfront
    · rw [dropLast, String.toList_ofList]
      intro heq
      have hlength := congrArg List.length heq
      have hpos := List.length_pos_iff.2 hne
      rw [List.length_dropLast] at hlength
      omega
  have hle := (isPrefix_cut text).length_le
  rw [String.length_toList, String.length_toList] at hle
  refine Nat.lt_of_le_of_ne hle fun hlength => hne' ((isPrefix_cut text).eq_of_length ?_)
  rw [String.length_toList, String.length_toList, hlength]

/-- An edit that leaves a front of the text: shorter than it, and without an exponent. -/
structure Trims (text text' : String) : Prop where
  shorter : text'.length < text.length
  front : text'.toList <+: text.toList
  plain : hasExponent text'.toList = false

/-- Erasing leaves the zero of the start, or a front of the text. -/
theorem erase_step (text : String) : erase text = start ∨ Trims text (erase text) := by
  unfold erase
  split
  · next h =>
    have hne : text ≠ "" := by
      rintro rfl
      exact absurd h (by decide)
    exact .inr ⟨length_cut_lt hne, isPrefix_cut text, hasExponent_cut text⟩
  · exact .inl rfl

/-! ## Step after step -/

/-- As many steps as there are characters lead to the zero, and at least one is needed. -/
theorem iterate_erase {n : Nat} (h : text.length ≤ n + 1) : erase^[n + 1] text = start := by
  induction n generalizing text with
  | zero =>
    rw [Nat.zero_add, Function.iterate_one]
    rcases erase_step text with hstart | htrims
    · exact hstart
    · have hempty : (erase text).length = 0 := Nat.lt_one_iff.1 (htrims.shorter.trans_le h)
      exact absurd (String.length_eq_zero_iff.1 hempty) (erase_ne_empty text)
  | succ n ih =>
    rw [Function.iterate_succ_apply]
    -- one step makes the text shorter, or leaves the zero, which is short enough
    refine ih ?_
    rcases erase_step text with hstart | htrims
    · rw [hstart]
      exact Nat.le_add_left 1 n
    · exact Nat.le_of_lt_succ (htrims.shorter.trans_le h)

/-! ## Taking a digit back -/

/-- No digit is the letter of an exponent. -/
theorem not_isExponent_of_isDigit {c : Char} (h : c.isDigit = true) :
    (c == 'e' || c == 'E') = false := by
  rw [Bool.or_eq_false_iff, beq_eq_false_iff_ne, beq_eq_false_iff_ne]
  constructor <;>
  · rintro rfl
    cases h

/-- What was put behind a number is the first to go. -/
theorem erase_push (hread : isReadable text = true) (hplain : hasExponent text.toList = false)
    {c : Char} (hc : (c == 'e' || c == 'E') = false) : erase (text.push c) = text := by
  have hpush : hasExponent (text.push c).toList = false := by
    rw [hasExponent] at hplain
    rw [hasExponent, String.toList_push, List.any_append, hplain]
    simpa using hc
  have hcut : cut (text.push c) = text := by
    rw [cut, hpush, if_neg Bool.false_ne_true, dropLast, String.toList_push, List.dropLast_concat,
      String.ofList_toList]
  rw [erase, hcut, if_pos hread]

/-- Only on the zero with a minus is there no way back: the digit takes the place of the zero. -/
theorem erase_typeDigit (hread : isReadable text = true)
    (hplain : hasExponent text.toList = false) (hminus : text ≠ "-0") {digit : Char}
    (hdigit : digit.isDigit = true) : erase (typeDigit text digit) = text := by
  have hletter := not_isExponent_of_isDigit hdigit
  unfold typeDigit
  split
  · next hzero =>
    simp only [isLoneZero, Bool.or_eq_true, beq_iff_eq] at hzero
    obtain rfl := hzero.resolve_right hminus
    split
    · decide +kernel
    · -- nothing is left of the digit, and that is no number
      have htyped : (dropLast "0").push digit = String.singleton digit := by simp [dropLast]
      have hcut : cut (String.singleton digit) = "" := by
        have hplain : hasExponent (String.singleton digit).toList = false := by
          rw [String.toList_singleton, hasExponent, List.any_cons, hletter]
          rfl
        rw [cut, hplain, if_neg Bool.false_ne_true, dropLast, String.toList_singleton]
        rfl
      rw [htyped, erase, hcut, if_neg (by decide)]
      rfl
  · exact erase_push hread hplain hletter

end Buffer

namespace Machine

open Outcome

variable {m : Machine}

/-! ## The delete key -/

/-- Where a number is being typed, the delete key erases. -/
theorem delete_of_typing (hm : m.failed = false) (hs : m.settled = false) :
    m.delete.machine = { m.quiet with buffer := Buffer.erase m.buffer } := by
  rw [delete, guarded_of_not_failed hm,
    if_neg (Bool.eq_false_iff.1 (show m.quiet.settled = false from hs))]
  rfl

/-- It erases, and the machine goes on taking digits. -/
theorem delete_erases (hm : m.failed = false) (hs : m.settled = false) :
    m.delete.machine.failed = false ∧ m.delete.machine.settled = false ∧
      m.delete.machine.buffer = Buffer.erase m.buffer := by
  rw [delete_of_typing hm hs]
  -- without this step `rfl` would unfold the edit, and with it the reading of numbers
  dsimp only
  exact ⟨hm, hs, rfl⟩

/-- Pressed several times, it erases several times. -/
theorem run_delete (hm : m.failed = false) (hs : m.settled = false) (n : Nat) :
    (m.run (List.replicate n .delete)).buffer = Buffer.erase^[n] m.buffer := by
  induction n generalizing m with
  | zero => rw [List.replicate_zero, Function.iterate_zero_apply, run, List.foldl_nil]
  | succ n ih =>
    obtain ⟨hm', hs', hbuffer⟩ := delete_erases hm hs
    rw [List.replicate_succ, run_cons, perform, ih hm' hs', hbuffer, Function.iterate_succ_apply]

/-- The machine that a digit was typed on goes on taking digits. -/
theorem perform_digit (hm : m.failed = false) (hs : m.settled = false) {digit : Char}
    (hdigit : digit.isDigit = true) :
    (m.perform (.digit (String.singleton digit))).machine.failed = false ∧
      (m.perform (.digit (String.singleton digit))).machine.settled = false ∧
      (m.perform (.digit (String.singleton digit))).machine.buffer =
        Buffer.typeDigit m.buffer digit := by
  have hkey : Buffer.isKey digit = true := by rw [Buffer.isKey, hdigit, Bool.true_or]
  have htext : m.quiet.keyedText digit = Buffer.typeDigit m.buffer digit := by
    have hpoint : digit ≠ '.' := by
      rintro rfl
      cases hdigit
    rw [keyedText, if_neg (Bool.eq_false_iff.1 (show m.quiet.settled = false from hs)),
      Buffer.type, if_neg hpoint]
    rfl
  obtain ⟨naming, intermediate, heq⟩ := m.quiet.exists_typeKey_eq digit
  rw [perform_key hm hkey, done, heq, htext]
  exact ⟨hm, rfl, rfl⟩

/-- Outside the error state, whatever stands in the buffer of a machine that takes digits: the
delete key leaves a number there, either zero or a shorter front of the text, without an exponent.
Pressed as often as there are characters, and at least once, it leaves the zero. A digit typed
behind a number without an exponent is taken back, except on `-0`. -/
theorem delete_repairs (hm : m.failed = false) (hs : m.settled = false) :
    (isReadable m.delete.machine.buffer = true ∧
      (m.delete.machine.buffer = "0" ∨ Buffer.Trims m.buffer m.delete.machine.buffer)) ∧
      (∀ n, 0 < n → m.buffer.length ≤ n → (m.run (List.replicate n .delete)).buffer = "0") ∧
      (isReadable m.buffer = true → hasExponent m.buffer.toList = false → m.buffer ≠ "-0" →
        ∀ digit, digit.isDigit = true →
          (m.perform (.digit (String.singleton digit))).machine.delete.machine.buffer =
            m.buffer) := by
  refine ⟨?_, fun n hpos hlength => ?_, fun hread hplain hminus digit hdigit => ?_⟩
  · rw [(delete_erases hm hs).2.2]
    exact ⟨isReadable_erase m.buffer, Buffer.erase_step m.buffer⟩
  · obtain ⟨n, rfl⟩ := Nat.exists_eq_add_one.2 hpos
    rw [run_delete hm hs]
    exact Buffer.iterate_erase hlength
  · obtain ⟨hm', hs', htyped⟩ := perform_digit hm hs hdigit
    rw [(delete_erases hm' hs').2.2, htyped]
    exact Buffer.erase_typeDigit hread hplain hminus hdigit

/-- The machine with a text in its buffer that is still being typed. -/
def typing (text : String) : Machine := { new (.ofLimit 0) with buffer := text }

/-- The exponent of a result goes at once, and a seven behind a grouped number goes again. -/
theorem delete_repairs_of_result :
    ((typing "8.99e+12").failed = false ∧ (typing "8.99e+12").settled = false) ∧
      Buffer.Trims "8.99e+12" (typing "8.99e+12").delete.machine.buffer ∧
      (typing "8.99e+12").delete.machine.buffer = "8.99" ∧
      ((typing "8.99e+12").run (List.replicate 8 .delete)).buffer = "0" ∧
      (isReadable (typing "-1,2").buffer = true ∧
        hasExponent (typing "-1,2").buffer.toList = false ∧ (typing "-1,2").buffer ≠ "-0") ∧
      ((typing "-1,2").perform (.digit (String.singleton '7'))).machine.delete.machine.buffer =
        "-1,2" := by
  have hcut : (typing "8.99e+12").delete.machine.buffer = "8.99" := by decide +kernel
  have hnumber : isReadable (typing "-1,2").buffer = true := by decide +kernel
  obtain ⟨⟨-, hleft⟩, hzero, -⟩ := delete_repairs (m := typing "8.99e+12") rfl rfl
  obtain ⟨-, -, hback⟩ := delete_repairs (m := typing "-1,2") rfl rfl
  have hne : (typing "8.99e+12").delete.machine.buffer ≠ "0" := hcut ▸ by decide
  exact ⟨⟨rfl, rfl⟩, hleft.resolve_left hne, hcut, hzero 8 (by decide) (by decide),
    ⟨hnumber, by decide, by decide⟩, hback hnumber (by decide) (by decide) '7' (by decide)⟩

end Machine

end Keypad
