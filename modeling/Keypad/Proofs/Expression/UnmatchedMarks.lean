import Keypad.Proofs.Expression.Conservation
import Keypad.Proofs.Expression.Grammar

/-!
# Marks that match nothing

A closing mark that matches no opening mark is not ignored: it sends out what waits, as if its
opening mark stood at the very front of the row. An opening mark that is never closed is closed by
the end of the row. Both are said at once: opening marks in front of a row and closing marks behind
it leave its order of evaluation as it is.

The marks in front lie at the bottom of the stack of what waits. A row that is read on top of them
sends out the same tokens at the same time, and a closing mark that finds no other opening mark
takes one of them away (`exists_underlaid_step`). The marks behind send out only what the end of the
row sends out anyway (`Tidy.finish_step_closing`).

* `toQueue_enclosed`       — marks around a row do not change its order of evaluation.
* `balanced_enclosed_iff`  — how many marks it takes to balance a row.
-/

namespace Keypad.Expression

open Reordering

/-- The row with so many opening marks in front of it and so many closing marks behind. -/
def enclosed (openings closings : Nat) (ts : Expression) : Expression :=
  List.replicate openings (Token.grouping .opening) ++ ts ++
    List.replicate closings (Token.grouping .closing)

/-! ## Opening marks at the bottom of the stack -/

section Bottom

variable (p : Token → Bool) (hp : p (Token.grouping .opening) = false) (waiting : List Token)
  (n : Nat)

include hp

/-- What stops at an opening mark stops above those that lie at the bottom. -/
theorem takeWhile_append_replicate_opening :
    (waiting ++ List.replicate n (Token.grouping .opening)).takeWhile p = waiting.takeWhile p := by
  induction waiting with
  | nil => cases n <;> simp [List.replicate_succ, hp]
  | cons w waiting ih => cases hw : p w <;> simp [hw, ih]

/-- Opening marks at the bottom stay where they are when what waits goes out. -/
theorem dropWhile_append_replicate_opening :
    (waiting ++ List.replicate n (Token.grouping .opening)).dropWhile p =
      waiting.dropWhile p ++ List.replicate n (Token.grouping .opening) := by
  induction waiting with
  | nil => cases n <;> simp [List.replicate_succ, hp]
  | cons w waiting ih => cases hw : p w <;> simp [hw, ih]

end Bottom

namespace Reordering

/-- The reordering with so many more opening marks below all that waits. -/
def underlaid (n : Nat) (r : Reordering) : Reordering :=
  ⟨r.output, r.waiting ++ List.replicate n (Token.grouping .opening)⟩

/-- The next token does the same on top of more opening marks. It leaves all of them, unless it is a
closing mark that finds no other opening mark. -/
theorem exists_underlaid_step (n : Nat) (r : Reordering) (t : Token) :
    ∃ m, (r.underlaid n).step t = (r.step t).underlaid m := by
  unfold Reordering.step
  split
  · exact ⟨n, rfl⟩
  · split
    · refine ⟨n, ?_⟩
      simp only [underlaid, takeWhile_append_replicate_opening (goesBefore (binding t)) rfl,
        dropWhile_append_replicate_opening (goesBefore (binding t)) rfl, List.cons_append]
    · split
      · exact ⟨n, rfl⟩
      · split
        · -- a closing mark takes one of the marks at the bottom if it finds no other
          simp only [underlaid, takeWhile_append_replicate_opening (!·.isOpening) rfl,
            dropWhile_append_replicate_opening (!·.isOpening) rfl]
          cases r.waiting.dropWhile (!·.isOpening) with
          | nil => exact ⟨n - 1, by simp⟩
          | cons w waiting => exact ⟨n, by simp⟩
        · exact ⟨n, rfl⟩

/-- A whole row does the same on top of more opening marks. -/
theorem exists_underlaid_foldl (n : Nat) (r : Reordering) (ts : Expression) :
    ∃ m, ts.foldl Reordering.step (r.underlaid n) = (ts.foldl Reordering.step r).underlaid m := by
  induction ts generalizing n r with
  | nil => exact ⟨n, rfl⟩
  | cons t ts ih =>
    obtain ⟨m, hstep⟩ := exists_underlaid_step n r t
    rw [List.foldl_cons, List.foldl_cons, hstep]
    exact ih m (r.step t)

/-- Opening marks that are left at the end do not go out. -/
theorem finish_underlaid (n : Nat) (r : Reordering) : (r.underlaid n).finish = r.finish := by
  have hmarks : (List.replicate n (Token.grouping .opening)).filter Token.isOperator = [] :=
    List.filter_replicate_of_neg (by rw [Token.isOperator_grouping]; exact Bool.false_ne_true)
  rw [finish, finish, underlaid, List.filter_append, hmarks, List.append_nil]

/-- Opening marks are put to wait on top of each other. -/
theorem foldl_replicate_opening (n : Nat) :
    (List.replicate n (Token.grouping .opening)).foldl Reordering.step ⟨[], []⟩ =
      underlaid n ⟨[], []⟩ := by
  induction n with
  | zero => rfl
  | succ n ih =>
    rw [List.replicate_succ', List.foldl_append, ih, List.foldl_cons, List.foldl_nil, step_opening]
    rfl

/-! ## Closing marks at the end -/

/-- A closing mark at the end takes out a part of what would go out next. -/
theorem Tidy.finish_step_closing {r : Reordering} (h : r.Tidy) :
    (r.step (Token.grouping .closing)).finish = r.finish := by
  rw [step_closing, finish, finish, List.append_assoc, h.filter_waiting]

/-- Several closing marks at the end change nothing in what is out. -/
theorem Tidy.finish_replicate_closing {r : Reordering} (h : r.Tidy) (n : Nat) :
    ((List.replicate n (Token.grouping .closing)).foldl Reordering.step r).finish = r.finish := by
  induction n generalizing r with
  | zero => rfl
  | succ n ih => rw [List.replicate_succ, List.foldl_cons, ih (h.step _), h.finish_step_closing]

/-- Reading a row keeps what waits tidy. -/
theorem Tidy.foldl {r : Reordering} (h : r.Tidy) (ts : Expression) :
    (ts.foldl Reordering.step r).Tidy := by
  induction ts generalizing r with
  | nil => exact h
  | cons t ts ih => exact ih (h.step t)

end Reordering

/-- Marks around a row are gone from its order of evaluation without a trace. -/
theorem reorder_enclosed (j k : Nat) (ts : Expression) :
    reorder (enclosed j k ts) = reorder ts := by
  obtain ⟨m, hfold⟩ := exists_underlaid_foldl j ⟨[], []⟩ ts
  have htidy : (ts.foldl Reordering.step (underlaid j ⟨[], []⟩)).Tidy := by
    rw [← foldl_replicate_opening, ← List.foldl_append]
    exact tidy_start.foldl _
  rw [reorder, enclosed, List.foldl_append, List.foldl_append, foldl_replicate_opening,
    htidy.finish_replicate_closing, hfold, finish_underlaid, reorder]

/-- Marks are no operators. -/
theorem unknownOperator?_replicate (n : Nat) (mark : Mark) :
    unknownOperator? (List.replicate n (Token.grouping mark)) = none := by
  refine List.find?_eq_none.2 fun t ht => ?_
  rw [List.eq_of_mem_replicate ht, Token.isOperator_grouping]
  exact Bool.false_ne_true

/-- A row with marks around it has the operators of the row. -/
theorem unknownOperator?_enclosed (j k : Nat) (ts : Expression) :
    unknownOperator? (enclosed j k ts) = unknownOperator? ts := by
  rw [enclosed, unknownOperator?_append, unknownOperator?_append, unknownOperator?_replicate,
    unknownOperator?_replicate, Option.none_or, Option.or_none]

/-! ## Balanced rows -/

/-- Every mark of the row has its partner: no front of the row closes more than it opens, and the
whole row closes all that it opens. -/
structure Balanced (ts : Expression) : Prop where
  front : ∀ n, (ts.take n).countP Token.isClosing ≤ (ts.take n).countP Token.isOpening
  whole : ts.countP Token.isClosing = ts.countP Token.isOpening

/-- How many closing marks of the row match no opening mark. -/
def missingOpenings : Expression → Nat
  | [] => 0
  | t :: ts =>
    if t.isOpening then missingOpenings ts - 1
    else if t.isClosing then missingOpenings ts + 1
    else missingOpenings ts

/-- How many opening marks of the row match no closing mark. -/
def missingClosings : Expression → Nat
  | [] => 0
  | t :: ts =>
    if t.isOpening ∧ missingOpenings ts = 0 then missingClosings ts + 1 else missingClosings ts

/-- With the missing marks the row opens as often as it closes. -/
theorem countP_missing (ts : Expression) :
    ts.countP Token.isOpening + missingOpenings ts =
      ts.countP Token.isClosing + missingClosings ts := by
  induction ts with
  | nil => rfl
  | cons t ts ih =>
    rw [List.countP_cons, List.countP_cons, missingOpenings, missingClosings]
    cases ho : t.isOpening with
    | true =>
      simp only [Token.isClosing_of_isOpening ho, if_true, true_and, Bool.false_eq_true, if_false]
      split <;> omega
    | false =>
      simp only [Bool.false_eq_true, if_false, false_and]
      split <;> omega

/-- A front of the row closes at most so much more than it opens as opening marks are missing. -/
theorem countP_isClosing_take_le (ts : Expression) (n : Nat) :
    (ts.take n).countP Token.isClosing ≤
      (ts.take n).countP Token.isOpening + missingOpenings ts := by
  induction ts generalizing n with
  | nil =>
    rw [List.take_nil]
    exact Nat.zero_le _
  | cons t ts ih =>
    cases n with
    | zero => exact Nat.zero_le _
    | succ n =>
      have hle := ih n
      rw [List.take_succ_cons, List.countP_cons, List.countP_cons, missingOpenings]
      cases ho : t.isOpening with
      | true =>
        simp only [Token.isClosing_of_isOpening ho, if_true, Bool.false_eq_true, if_false]
        omega
      | false =>
        simp only [Bool.false_eq_true, if_false]
        split <;> omega

/-- Some front does close so much more than it opens. -/
theorem exists_countP_isClosing_take_eq (ts : Expression) :
    ∃ n ≤ ts.length, (ts.take n).countP Token.isClosing =
      (ts.take n).countP Token.isOpening + missingOpenings ts := by
  induction ts with
  | nil => exact ⟨0, Nat.le_refl _, rfl⟩
  | cons t ts ih =>
    obtain ⟨n, hn, heq⟩ := ih
    by_cases hzero : missingOpenings (t :: ts) = 0
    · exact ⟨0, Nat.zero_le _, by rw [hzero]; rfl⟩
    · refine ⟨n + 1, Nat.succ_le_succ hn, ?_⟩
      rw [missingOpenings] at hzero ⊢
      rw [List.take_succ_cons, List.countP_cons, List.countP_cons]
      cases ho : t.isOpening with
      | true =>
        simp only [ho, Token.isClosing_of_isOpening ho, if_true, Bool.false_eq_true, if_false]
          at hzero ⊢
        omega
      | false =>
        simp only [Bool.false_eq_true, if_false]
        split <;> omega

section Counts

variable (j k : Nat) (ts : Expression)

/-- The marks in front add to what is opened. -/
theorem countP_isOpening_enclosed :
    (enclosed j k ts).countP Token.isOpening = j + ts.countP Token.isOpening := by
  simp [enclosed, List.countP_replicate]

theorem countP_isClosing_enclosed :
    (enclosed j k ts).countP Token.isClosing = ts.countP Token.isClosing + k := by
  simp [enclosed, List.countP_replicate]

/-- A front of a row with marks around it is a front of the row with marks around it. -/
theorem take_enclosed (n : Nat) :
    (enclosed j k ts).take n =
      enclosed (min n j) (min (n - (j + ts.length)) k) (ts.take (n - j)) := by
  simp only [enclosed, List.take_append, List.take_replicate, List.length_append,
    List.length_replicate]

end Counts

/-- A row is balanced by so many marks around it as are missing, and by more of them only if these
match each other. -/
theorem balanced_enclosed_iff (j k : Nat) (ts : Expression) :
    Balanced (enclosed j k ts) ↔
      ∃ n, j = missingOpenings ts + n ∧ k = missingClosings ts + n := by
  have hopenings := countP_isOpening_enclosed j k ts
  have hclosings := countP_isClosing_enclosed j k ts
  have hmissing := countP_missing ts
  constructor
  · rintro ⟨hfront, hwhole⟩
    obtain ⟨n, hn, heq⟩ := exists_countP_isClosing_take_eq ts
    have hle := hfront (j + n)
    rw [take_enclosed, countP_isOpening_enclosed, countP_isClosing_enclosed,
      Nat.add_sub_cancel_left] at hle
    exact ⟨j - missingOpenings ts, by omega, by omega⟩
  · rintro ⟨m, rfl, rfl⟩
    refine ⟨fun n => ?_, by omega⟩
    rw [take_enclosed, countP_isOpening_enclosed, countP_isClosing_enclosed]
    -- the front ends in the marks in front, in the row, or in the marks behind
    have hle := countP_isClosing_take_le ts (n - (missingOpenings ts + m))
    by_cases hfew : n < missingOpenings ts + m
    · rw [Nat.sub_eq_zero_of_le (Nat.le_of_lt hfew), List.take_zero, List.countP_nil,
        List.countP_nil]
      omega
    · by_cases hmany : missingOpenings ts + m + ts.length ≤ n
      · rw [List.take_of_length_le (by omega)]
        omega
      · omega

/-- Marks around a row, however many, leave its order of evaluation and its value as they are. So a
row whose marks do not match evaluates like the row that has the missing opening marks in front and
the missing closing marks behind: that is the row with the fewest marks around it that balance
it. -/
theorem toQueue_enclosed (ts : Expression) :
    (∀ j k, toQueue (enclosed j k ts) = toQueue ts ∧ evaluate (enclosed j k ts) = evaluate ts) ∧
      ∀ j k, Balanced (enclosed j k ts) ↔
        ∃ n, j = missingOpenings ts + n ∧ k = missingClosings ts + n := by
  have hqueue (j k : Nat) : toQueue (enclosed j k ts) = toQueue ts := by
    rw [toQueue, toQueue, unknownOperator?_enclosed, reorder_enclosed]
  refine ⟨fun j k => ⟨hqueue j k, ?_⟩, fun j k => balanced_enclosed_iff j k ts⟩
  rw [evaluate, evaluate, hqueue]

/-- In `1 + 2 ) × 3` the mark makes the sum come first, as it does in `( 1 + 2 ) × 3`. -/
example :
    let number text := Token.plain .operand text .blank none
    let ts := [number "1", .operator .add, number "2", .grouping .closing, .operator .multiply,
      number "3"]
    missingOpenings ts = 1 ∧ evaluate ts = Number.read "9" := by
  decide +kernel

end Keypad.Expression
