import Keypad.Proofs.Console.Passage
import Keypad.Proofs.Console.WrittenExpression

/-!
# Lines put together

White space only separates. Two lines that are put together with white space between them are lexed
as they are alone, if the first is lexed to its end: no lexeme goes on past the white space, and
none of the second line is affected by what stands before it. So the commands of both are carried
out one after the other, and a fault of the second line is the one it has alone.

The expression is printed between two lines, and printing can be refused. Where it is not, the two
lines leave the machine that the one line leaves.

* `feedChars_separated` — the text before white space is fed, and then the text from there on.
* `execute_joined`      — the lexemes, the fault and the machine of two lines put together.
-/

namespace Keypad

open Keypad.Text

namespace Console

open Machine Machine.Outcome

/-! ## Lexemes one after the other -/

/-- Lexemes behind others are carried out after them. -/
theorem carryOutLexemes_append (m : Machine) (lexemes lexemes' : List Lexeme) :
    carryOutLexemes m (lexemes ++ lexemes') =
      (carryOutLexemes m lexemes).andThen fun m => carryOutLexemes m lexemes' := by
  induction lexemes generalizing m with
  | nil => exact (done_andThen m fun m => carryOutLexemes m lexemes').symm
  | cons lexeme lexemes ih =>
    rw [List.cons_append, carryOutLexemes, carryOutLexemes, andThen_assoc]
    simp only [ih]

/-- The text before white space is fed, and then the text from there on. -/
theorem feedChars_separated {cs rest : List Char} (h : (Lexeme.scan cs).2 = [])
    (hrest : Form.Separates rest) (m : Machine) :
    feedChars m (cs ++ rest) = (feedChars m cs).andThen fun m => feedChars m rest := by
  have hend : (Lexeme.feedables cs).2 = [] := h
  have hfront : feedChars m cs = carryOutLexemes m (Lexeme.feedables cs).1 := by
    rw [feedChars_eq, hend]
    exact andThen_done _
  rw [hfront, feedChars_eq, Lexeme.feedables_append cs hrest, hend, List.nil_append,
    carryOutLexemes_append, andThen_assoc]
  simp only [feedChars_eq]

/-! ## One line and two lines -/

/-- What a user is told of a fault makes no difference to the machine. -/
theorem ending_told {o o' : Outcome Emission} (h : o.ending = o'.ending) :
    (told o).ending = (told o').ending := by
  obtain ⟨m, fault, log⟩ := o
  obtain ⟨m', fault', log'⟩ := o'
  obtain ⟨rfl, rfl⟩ := Prod.mk.inj h
  unfold told
  cases fault with
  | none => rfl
  | some fault =>
    dsimp only
    split <;> rfl

theorem execute_singleton (m : Machine) (line : String) : execute m [line] = runLine m line :=
  andThen_done _

/-- A line that does not end the run leaves the machine to the next line. -/
theorem ending_execute_pair {m : Machine} {s : String} (hshown : (execute m [s]).fault = none)
    (t : String) :
    (execute m [s, t]).ending = (runLine (feed m s).machine t).ending := by
  rw [execute_singleton] at hshown
  have hmachine : (runLine m s).machine = (feed m s).machine :=
    (andThen_machine redraw_machine).trans (told_machine _)
  have hfirst : (runLine m s).ending = ((feed m s).machine, none) :=
    Prod.ext hmachine hshown
  rw [execute, ending_andThen hfirst, execute_singleton]

/-- Two lines are put together with white space between them, the first of which is lexed to its
end. The lexemes that ask for something are those of the first line and then those of the second,
and stand for the same commands; what is said about a rest is what is said about that of the second
line alone. On any machine the first line is fed and, unless it is refused, the second line after
it. If no fault arises on the first line, nor on printing what it comes to, the machine is the one
that the two lines leave apart. -/
theorem execute_joined {s w t : String} (hs : (Lexeme.scan s.toList).2 = []) (hne : w ≠ "")
    (hw : Blank w.toList) :
    let line := s ++ w ++ t
    Lexeme.feedables line.toList =
        ((Lexeme.feedables s.toList).1 ++ (Lexeme.feedables t.toList).1,
          (Lexeme.feedables t.toList).2) ∧
      (Lexeme.feedables line.toList).1.map Lexeme.commands =
        (Lexeme.feedables s.toList).1.map Lexeme.commands ++
          (Lexeme.feedables t.toList).1.map Lexeme.commands ∧
      Lexeme.unlexedFault? (Lexeme.scan line.toList).2 =
        Lexeme.unlexedFault? (Lexeme.scan t.toList).2 ∧
      ∀ m, feed m line = (feed m s).andThen (fun m => feed m t) ∧
        ((feed m s).fault = none → (execute m [s]).fault = none →
          (execute m [line]).ending = (execute m [s, t]).ending) := by
  intro line
  have hline : line.toList = s.toList ++ (w.toList ++ t.toList) := by
    simp only [line, String.toList_append, List.append_assoc]
  have hseparates : Form.Separates (w.toList ++ t.toList) :=
    Form.separates_append hw (mt String.toList_eq_nil_iff.1 hne) _
  have hlexemes : Lexeme.feedables line.toList =
      ((Lexeme.feedables s.toList).1 ++ (Lexeme.feedables t.toList).1,
        (Lexeme.feedables t.toList).2) := by
    have hend : (Lexeme.feedables s.toList).2 = [] := hs
    rw [hline, Lexeme.feedables_append _ hseparates, hend, List.nil_append,
      Lexeme.feedables_blank_append hw]
  obtain ⟨-, hrest⟩ := Prod.mk.inj hlexemes
  refine ⟨hlexemes, by rw [hlexemes, List.map_append], ?_, fun m => ?_⟩
  · exact congrArg Lexeme.unlexedFault? hrest
  -- the white space between the lines is fed as nothing
  have hfeed : feed m line = (feed m s).andThen fun m => feed m t := by
    change feedChars m line.toList = _
    rw [hline, feedChars_separated hs hseparates]
    simp only [feedChars_blank hw]
    rfl
  refine ⟨hfeed, fun hfault hshown => ?_⟩
  -- once the first line is through, only the second one is left to feed
  have hend : (feed m line).ending = (feed (feed m s).machine t).ending := by
    rw [hfeed, andThen_of_done hfault]
    rfl
  rw [execute_singleton, ending_execute_pair hshown]
  exact ending_andThen_congr (ending_told hend) redraw

/-- A name that could take a colour and a number stand on either side of the white space, and the
second line has a letter that cannot be lexed. -/
theorem execute_joined_of_rent :
    let m := new (.ofLimit 0)
    Lexeme.unlexedFault? (Lexeme.scan "1.5 'rent'\u2003\t2'wage':blue+q3".toList).2 =
        some (.unlexable "q3") ∧
      feed m "1.5 'rent'\u2003\t2'wage':blue+q3" =
        (feed m "1.5 'rent'").andThen (fun m => feed m "2'wage':blue+q3") ∧
      (execute m ["1.5 'rent'\u2003\t2'wage':blue+q3"]).ending =
        (execute m ["1.5 'rent'", "2'wage':blue+q3"]).ending := by
  intro m
  have hend : (Lexeme.scan "1.5 'rent'".toList).2 = [] := by decide +kernel
  have hblank : Blank "\u2003\t".toList := List.all_eq_true.1 (by decide)
  have hfeed : (feed m "1.5 'rent'").fault = none := by decide +kernel
  have hshown : (execute m ["1.5 'rent'"]).fault = none := by decide +kernel
  have hsecond : Lexeme.unlexedFault? (Lexeme.scan "2'wage':blue+q3".toList).2 =
      some (.unlexable "q3") := by decide +kernel
  obtain ⟨-, -, hrest, hmachine⟩ := execute_joined (t := "2'wage':blue+q3") hend (by decide) hblank
  exact ⟨hrest.trans hsecond, (hmachine m).1, (hmachine m).2 hfeed hshown⟩

end Console

end Keypad
