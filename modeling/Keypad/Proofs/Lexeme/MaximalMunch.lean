import Keypad.Proofs.Lexeme.Cutting
import Keypad.Proofs.Lexeme.Longest

/-!
# Maximal munch

Scanning is maximal munch over the languages of the eleven forms: it takes the longest lexeme off
the front of what is left, for as long as there is one. `Munched` says this of a text, some lexemes
and a rest without scanning, and a text has no other lexemes and rest than those it is scanned into
(`scan_eq_iff_munched`).
-/

namespace Keypad.Lexeme

open Keypad.Text Form

/-- The lexeme stands at the front of the text, and no lexeme there is longer. -/
structure IsLongest (lexeme : Lexeme) (cs : List Char) : Prop where
  spells : lexeme.form.Spells lexeme.text
  front : lexeme.text <+: cs
  longest : ∀ (form : Form) (text : List Char), form.Spells text → text <+: cs →
    text.length ≤ lexeme.text.length

/-- No form has a text at the front. -/
def NoneAtFront (cs : List Char) : Prop :=
  ∀ (form : Form) (text : List Char), form.Spells text → ¬text <+: cs

/-- The lexemes and the rest that come of taking the longest lexeme off the front of the text, for
as long as there is one. -/
inductive Munched : List Char → List Lexeme → List Char → Prop where
  | stop {rest : List Char} (h : NoneAtFront rest) : Munched rest [] rest
  | take {lexeme : Lexeme} {cs rest : List Char} {lexemes : List Lexeme}
      (h : lexeme.IsLongest (lexeme.text ++ cs)) (hmore : Munched cs lexemes rest) :
      Munched (lexeme.text ++ cs) (lexeme :: lexemes) rest

/-! ## One lexeme -/

theorem noneAtFront_nil : NoneAtFront [] := by
  intro form text htext hfront
  exact (prefixLength_measures form).ne_nil text htext (List.prefix_nil.1 hfront)

/-- What is cut off is the longest lexeme at the front. -/
theorem isLongest_of_measure? {cs : List Char} {form : Form} {n : Nat}
    (h : measure? cs = some (form, n)) : IsLongest ⟨form, cs.take n⟩ cs := by
  obtain ⟨hne, hlength⟩ := measure?_eq_some_iff.1 h
  obtain ⟨text, rest, rfl, htext, hspells⟩ :=
    (prefixLength_measures form).front cs (hlength ▸ hne)
  rw [hlength] at htext
  rw [← htext, List.take_left]
  refine ⟨hspells, List.prefix_append _ _, fun form' text' hspells' hfront => ?_⟩
  -- another text at the front is of the same form, and of that form none is longer
  obtain rfl := hspells'.form_eq hfront hspells (List.prefix_append _ _)
  obtain ⟨rest', heq⟩ := hfront
  have hlongest := (prefixLength_measures form').longest text' rest' hspells'
  rw [heq, hlength] at hlongest
  exact hlongest.trans_eq htext.symm

/-- The longest lexeme at the front is what is cut off. -/
theorem IsLongest.measure?_eq {lexeme : Lexeme} {cs : List Char} (h : lexeme.IsLongest cs) :
    measure? cs = some (lexeme.form, lexeme.text.length) := by
  have hmeasures := prefixLength_measures lexeme.form
  have hpos := List.length_pos_iff.2 (hmeasures.ne_nil _ h.spells)
  refine measure?_eq_some_iff.2 ⟨by omega, Nat.le_antisymm ?_ ?_⟩
  · obtain ⟨text, rest, heq, hlength, hspells⟩ :=
      hmeasures.front cs (prefixLength_ne_zero_iff.2 ⟨_, h.spells, h.front⟩)
    rw [← hlength]
    exact h.longest lexeme.form text hspells ⟨rest, heq.symm⟩
  · obtain ⟨rest, rfl⟩ := h.front
    exact hmeasures.longest lexeme.text rest h.spells

/-! ## All lexemes -/

/-- Scanning stops where nothing is cut off. -/
theorem scan_of_none {cs : List Char} (h : measure? cs = none) : scan cs = ([], cs) := by
  cases cs with
  | nil => rw [scan]
  | cons c cs => rw [scan, h]

/-- Scanning takes the longest lexeme off every time. -/
theorem munched_scan (cs : List Char) : Munched cs (scan cs).1 (scan cs).2 := by
  fun_induction scan cs with
  | case1 => exact .stop noneAtFront_nil
  | case2 c cs hnone => exact .stop (measure?_eq_none_iff.1 hnone)
  | case3 c cs form n hmeasure more ih =>
    obtain ⟨n, rfl⟩ := Nat.exists_eq_succ_of_ne_zero (measure?_eq_some_iff.1 hmeasure).1
    have hlongest := isLongest_of_measure? hmeasure
    rw [Nat.succ_eq_add_one, List.take_succ_cons] at hlongest
    have hsplit : c :: cs = (c :: cs.take n) ++ cs.drop n := by
      rw [List.cons_append, List.take_append_drop]
    rw [hsplit] at hlongest ⊢
    exact .take hlongest ih

/-- What is munched is what is scanned. -/
theorem Munched.scan_eq {cs rest : List Char} {lexemes : List Lexeme}
    (h : Munched cs lexemes rest) : scan cs = (lexemes, rest) := by
  induction h with
  | stop h => exact scan_of_none (measure?_eq_none_iff.2 h)
  | @take lexeme cs rest lexemes h _ ih =>
    have hne := (prefixLength_measures lexeme.form).ne_nil lexeme.text h.spells
    rw [scan_append h.measure?_eq hne, ih]

/-- Scanning and munching come to the same lexemes and the same rest. -/
theorem scan_eq_iff_munched {cs rest : List Char} {lexemes : List Lexeme} :
    scan cs = (lexemes, rest) ↔ Munched cs lexemes rest := by
  refine ⟨fun h => ?_, Munched.scan_eq⟩
  have hmunched := munched_scan cs
  rwa [h] at hmunched

/-- Every lexeme that is munched is of its form. -/
theorem Munched.spells {cs rest : List Char} {lexemes : List Lexeme}
    (h : Munched cs lexemes rest) : ∀ lexeme ∈ lexemes, lexeme.form.Spells lexeme.text := by
  induction h with
  | stop _ => exact fun lexeme h => absurd h List.not_mem_nil
  | take h _ ih => exact List.forall_mem_cons.2 ⟨h.spells, ih⟩

/-- Munching stops only where no form has a text. -/
theorem Munched.noneAtFront {cs rest : List Char} {lexemes : List Lexeme}
    (h : Munched cs lexemes rest) : NoneAtFront rest := by
  induction h with
  | stop h => exact h
  | take _ _ ih => exact ih

/-- The lexemes and the rest of a text are those that maximal munch takes off, and make up the text.
Every lexeme is not empty and of one form only, since no two forms have texts at the front of one
text. There is a fault exactly where a rest is left at the front of which no form has a text, and it
says so. -/
theorem scan_maximal_munch (cs : List Char) :
    (∀ lexemes rest, scan cs = (lexemes, rest) ↔ Munched cs lexemes rest) ∧
      ((scan cs).1.map Lexeme.text).flatten ++ (scan cs).2 = cs ∧
      (∀ lexeme ∈ (scan cs).1,
        lexeme.text ≠ [] ∧ ∀ form : Form, form.Spells lexeme.text ↔ form = lexeme.form) ∧
      (∀ (place text text' : List Char) (form form' : Form), form.Spells text → text <+: place →
        form'.Spells text' → text' <+: place → form = form') ∧
      (unlexedFault? (scan cs).2 ≠ none ↔ (scan cs).2 ≠ [] ∧ NoneAtFront (scan cs).2) ∧
      ∀ fault, unlexedFault? (scan cs).2 = some fault →
        fault.message = "Couldn't lex " ++ String.ofList (trim isMargin (scan cs).2) := by
  have hmunched := munched_scan cs
  refine ⟨fun lexemes rest => scan_eq_iff_munched, scan_flatten cs, fun lexeme hmem => ?_,
    fun place text text' form form' h hfront h' hfront' => h.form_eq hfront h' hfront', ?_, ?_⟩
  · have hspells := hmunched.spells lexeme hmem
    refine ⟨(prefixLength_measures _).ne_nil _ hspells, fun form => ⟨fun h => ?_, ?_⟩⟩
    · exact h.form_eq List.prefix_rfl hspells List.prefix_rfl
    · rintro rfl
      exact hspells
  · rw [and_iff_left hmunched.noneAtFront, unlexedFault?]
    simp
  · intro fault hfault
    obtain ⟨-, hsome⟩ := Option.ite_none_left_eq_some.1 hfault
    obtain rfl := Option.some.inj hsome
    rfl

end Keypad.Lexeme
