import Keypad.Proofs.Lexeme.MaximalMunch
import Keypad.Proofs.Lexeme.Separation

/-!
# Lexemes that ask for something

White space is cut off as a lexeme of its own, as far as it goes, and asks for nothing. Without the
lexemes of white space, cutting a text is compositional wherever white space stands: what comes
before it is cut as if the text ended there, and what comes behind it is cut on its own.

* `feedables_append`       — a text that goes on with white space.
* `feedables_append_blank` — a text with nothing but white space behind it.
-/

namespace Keypad.Lexeme

open Keypad.Text Form

/-- The lexemes of a text that ask for something, and the rest that starts with no lexeme. -/
def feedables (cs : List Char) : List Lexeme × List Char :=
  ((scan cs).1.filter isFeedable, (scan cs).2)

/-- A text with no lexeme at its front is left as it is. -/
theorem feedables_of_none {cs : List Char} (h : measure? cs = none) : feedables cs = ([], cs) := by
  rw [feedables, scan_of_none h]
  rfl

theorem feedables_nil : feedables [] = ([], []) :=
  feedables_of_none (measure?_eq_none_iff.2 noneAtFront_nil)

/-- White space at the front may be taken off first. -/
theorem feedables_dropWhile (cs : List Char) :
    feedables (cs.dropWhile isBlank) = feedables cs := by
  cases cs with
  | nil => rfl
  | cons c cs =>
    cases hc : isBlank c with
    | false => rw [List.dropWhile_cons, if_neg (Bool.eq_false_iff.1 hc)]
    | true =>
      conv => rhs; rw [feedables, scan_of_isBlank hc]
      rfl

/-- White space at the front asks for nothing. -/
theorem feedables_blank_append {cs : List Char} (h : Only isBlank cs) (rest : List Char) :
    feedables (cs ++ rest) = feedables rest := by
  rw [← feedables_dropWhile, List.dropWhile_append_of_pos h, feedables_dropWhile]

/-- Any other lexeme at the front is cut off, and the rest on its own. -/
theorem feedables_take {lexeme : Lexeme} {rest : List Char}
    (h : measure? (lexeme.text ++ rest) = some (lexeme.form, lexeme.text.length))
    (hne : lexeme.text ≠ []) (hform : lexeme.form ≠ .space) :
    feedables (lexeme.text ++ rest) = (lexeme :: (feedables rest).1, (feedables rest).2) := by
  have hfeedable : lexeme.isFeedable = true := bne_iff_ne.2 hform
  rw [feedables, scan_append h hne, List.filter_cons_of_pos hfeedable]
  rfl

/-- A text of a form is the lexeme at its own front. -/
theorem measure?_of_spells {lexeme : Lexeme} (h : lexeme.form.Spells lexeme.text) :
    measure? lexeme.text = some (lexeme.form, lexeme.text.length) := by
  have hlongest : lexeme.IsLongest lexeme.text :=
    ⟨h, List.prefix_rfl, fun _ _ _ hfront => hfront.length_le⟩
  exact hlongest.measure?_eq

/-- A text of a form is fed as one lexeme. -/
theorem feedables_of_spells {lexeme : Lexeme} (h : lexeme.form.Spells lexeme.text)
    (hform : lexeme.form ≠ .space) : feedables lexeme.text = ([lexeme], []) := by
  have hmeasure : measure? (lexeme.text ++ []) = some (lexeme.form, lexeme.text.length) := by
    rw [List.append_nil, measure?_of_spells h]
  have htake := feedables_take hmeasure ((prefixLength_measures _).ne_nil _ h) hform
  rwa [List.append_nil, feedables_nil] at htake

/-! ## Texts that go on with white space -/

/-- The lexemes are taken off one by one. White space is taken off as far as it goes: its lexeme is
not the same with more of it behind, but it asks for nothing. -/
theorem Munched.feedables_append {cs stop rest : List Char} {lexemes : List Lexeme}
    (h : Munched cs lexemes stop) (hrest : Separates rest) :
    feedables (cs ++ rest) =
      (lexemes.filter isFeedable ++ (feedables (stop ++ rest)).1,
        (feedables (stop ++ rest)).2) := by
  induction h with
  | stop _ => rfl
  | @take lexeme cs stop lexemes hlongest _ ih =>
    rw [List.append_assoc]
    by_cases hform : lexeme.form = .space
    · have hblank : Only isBlank lexeme.text := by
        have hspells := hlongest.spells
        rw [hform] at hspells
        exact hspells.2
      have hskipped : ¬lexeme.isFeedable = true := fun hfeedable => bne_iff_ne.1 hfeedable hform
      rw [feedables_blank_append hblank, ih, List.filter_cons_of_neg hskipped]
    · have hne := (prefixLength_measures lexeme.form).ne_nil _ hlongest.spells
      have hmeasure := measure?_append hlongest.measure?_eq hform hrest
      have hfeedable : lexeme.isFeedable = true := bne_iff_ne.2 hform
      rw [List.append_assoc] at hmeasure
      rw [feedables_take hmeasure hne hform, ih, List.filter_cons_of_pos hfeedable]
      rfl

/-- Before white space a text is cut as if it ended there, and what is left is cut with the white
space and all that comes behind it. -/
theorem feedables_append (cs : List Char) {rest : List Char} (hrest : Separates rest) :
    feedables (cs ++ rest) =
      ((feedables cs).1 ++ (feedables ((feedables cs).2 ++ rest)).1,
        (feedables ((feedables cs).2 ++ rest)).2) :=
  (munched_scan cs).feedables_append hrest

end Keypad.Lexeme
