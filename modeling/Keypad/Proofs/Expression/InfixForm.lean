import Keypad.Proofs.Expression.Conservation
import Mathlib.Data.List.Chain

/-!
# Rows that have a value

A row is read from left to right, and in front of every token a value is either complete or still
to come. Two things can be wrong there: at a *seam* an operand or group begins straight behind
another, so that an operator is missing; at a *gap* an operator, a closing mark or the end comes
where a value is missing. Evaluation brings the row into another order before it looks for either,
and can do no more than count. So a row with a value has as many gaps as it has seams
(`gaps_eq_seams`), and a gap that a seam makes up for goes unnoticed: `1 2 +` is three. Without a
seam every operator of a row with a value stands between two values, and a row with an operator that
does not is refused (`evaluate_of_seamless`).
-/

namespace Keypad

namespace Token

/-- Whether a value is complete behind the token. -/
def endsValue (t : Token) : Bool := t.isOperand || t.isClosing

/-- Whether a value begins with the token. -/
def startsValue (t : Token) : Bool := t.isOperand || t.isOpening

/-- An operand both begins and ends a value, a mark does one of the two, and an operator neither. -/
theorem Checked.sides {t : Token} (h : t.Checked) :
    t.isOperand.toNat + 1 = t.isOperator.toNat + t.startsValue.toNat + t.endsValue.toNat := by
  cases h with
  | operand h =>
    obtain ⟨-, rfl⟩ := operand_eq_ok h
    rfl
  | operator op => rfl
  | grouping mark => cases mark <;> rfl

/-- No value begins with an operator. -/
theorem startsValue_of_isOperator {t : Token} (h : t.isOperator = true) :
    t.startsValue = false := by
  rw [isOperator, beq_iff_eq] at h
  rw [startsValue, isOperand, isOpening, h]
  rfl

/-- No value ends with an operator. -/
theorem endsValue_of_isOperator {t : Token} (h : t.isOperator = true) : t.endsValue = false := by
  rw [isOperator, beq_iff_eq] at h
  rw [endsValue, isOperand, isClosing, h]
  rfl

end Token

namespace Expression

/-- No operand or group begins straight behind another. -/
def Seamless (ts : Expression) : Prop :=
  ts.IsChain fun l r => ¬(l.endsValue = true ∧ r.startsValue = true)

instance (ts : Expression) : Decidable (Seamless ts) :=
  inferInstanceAs (Decidable (List.IsChain _ ts))

/-- Every operator has an operand or a closing mark straight on its left, and an operand or an
opening mark straight on its right. -/
def OperatorsPlaced (ts : Expression) : Prop :=
  ∀ front op back, ts = front ++ op :: back → op.isOperator = true →
    (∃ l, front.getLast? = some l ∧ l.endsValue = true) ∧
      ∃ r, back.head? = some r ∧ r.startsValue = true

/-- How often an operator is missing, where `complete` says whether a value is complete in front of
the row. -/
def seams (complete : Bool) : Expression → Nat
  | [] => 0
  | t :: ts => (complete && t.startsValue).toNat + seams t.endsValue ts

/-- How often a value is missing, where `complete` says whether one is complete in front of the
row. -/
def gaps (complete : Bool) : Expression → Nat
  | [] => (!complete).toNat
  | t :: ts => (!complete && !t.startsValue).toNat + gaps t.endsValue ts

/-! ## Counting -/

/-- Every token asks for a value in front of it or for none, and leaves one behind it or none. -/
theorem countP_add_gaps {ts : Expression} (hts : ∀ t ∈ ts, t.Checked) (complete : Bool) :
    ts.countP Token.isOperand + gaps complete ts + complete.toNat =
      ts.countP Token.isOperator + 1 + seams complete ts := by
  induction ts generalizing complete with
  | nil => cases complete <;> rfl
  | cons t ts ih =>
    have hrest := ih (fun t ht => hts t (List.mem_cons_of_mem _ ht)) t.endsValue
    have hsides := (hts t List.mem_cons_self).sides
    have hcount (p : Token → Bool) : (t :: ts).countP p = (p t).toNat + ts.countP p := by
      rw [List.countP_cons, Nat.add_comm]
      cases p t <;> rfl
    have hplace : (!complete && !t.startsValue).toNat + complete.toNat + t.startsValue.toNat =
        (complete && t.startsValue).toNat + 1 := by
      cases complete <;> cases t.startsValue <;> rfl
    rw [hcount, hcount, gaps, seams]
    omega

/-- A row with a value lacks as many values as it lacks operators. -/
theorem gaps_eq_seams {ts : Expression} (hts : ∀ t ∈ ts, t.Checked)
    (hterm : ∃ t ∈ ts, t.isTerm = true) {x : Double} (h : evaluate ts = .ok x) :
    gaps false ts = seams false ts := by
  have hcount := countP_add_gaps hts false
  have hvalue := countP_of_evaluate h hterm
  rw [hvalue, Bool.toNat_false] at hcount
  omega

/-! ## Seams and gaps at their places -/

/-- Without seams no operator is missing behind the first token. -/
theorem Seamless.seams_endsValue {t : Token} {ts : Expression} (h : Seamless (t :: ts)) :
    seams t.endsValue ts = 0 := by
  induction ts generalizing t with
  | nil => rfl
  | cons t' ts ih =>
    obtain ⟨hseam, hrest⟩ := List.isChain_cons_cons.1 h
    rw [← Bool.and_eq_true, Bool.not_eq_true] at hseam
    rw [seams, hseam, ih hrest]
    rfl

/-- A seamless row has no seams, with nothing complete in front of it. -/
theorem Seamless.seams_eq_zero {ts : Expression} (h : Seamless ts) : seams false ts = 0 := by
  cases ts with
  | nil => rfl
  | cons t ts =>
    rw [seams, h.seams_endsValue]
    rfl

/-- Behind the front of a row a value is complete if its last token ends one. -/
theorem gaps_of_append {complete : Bool} {front back : Expression}
    (h : gaps complete (front ++ back) = 0) :
    gaps ((front.getLast?.map Token.endsValue).getD complete) back = 0 := by
  induction front generalizing complete with
  | nil => exact h
  | cons t front ih =>
    rw [List.cons_append, gaps, Nat.add_eq_zero_iff] at h
    have hrest := ih h.2
    rw [List.getLast?_cons]
    cases hlast : front.getLast? with
    | none => rwa [hlast] at hrest
    | some l => rwa [hlast] at hrest

/-- Where no value is missing, every operator has its two. -/
theorem operatorsPlaced_of_gaps {ts : Expression} (h : gaps false ts = 0) : OperatorsPlaced ts := by
  rintro front op back rfl hop
  have hplace := gaps_of_append h
  rw [gaps, Token.startsValue_of_isOperator hop, Token.endsValue_of_isOperator hop,
    Nat.add_eq_zero_iff] at hplace
  obtain ⟨hleft, hright⟩ := hplace
  -- in front of the operator a value is complete, and behind it one begins
  constructor
  · cases hlast : front.getLast? with
    | none => rw [hlast] at hleft; cases hleft
    | some l =>
      rw [hlast] at hleft
      refine ⟨l, rfl, ?_⟩
      cases hl : l.endsValue with
      | true => rfl
      | false => simp [hl] at hleft
  · cases back with
    | nil => cases hright
    | cons r back =>
      refine ⟨r, rfl, ?_⟩
      cases hr : r.startsValue with
      | true => rfl
      | false => simp [gaps, hr] at hright

/-! ## What has a value -/

/-- In a row without seams, an operator that does not stand between two values is found: only a row
in which all of them do has a value, and any other is refused with a fault that the user is told. -/
theorem evaluate_of_seamless {ts : Expression} (hts : ∀ t ∈ ts, t.Checked)
    (hop : ∃ t ∈ ts, t.isOperator = true) (hseam : Seamless ts) :
    (∀ x, evaluate ts = .ok x → OperatorsPlaced ts) ∧
      (¬OperatorsPlaced ts → ∃ fault, evaluate ts = .error fault ∧ fault.kind.isTold = true) := by
  have hterm : ∃ t ∈ ts, t.isTerm = true := by
    obtain ⟨t, ht, hop⟩ := hop
    exact ⟨t, ht, by rw [Token.isTerm, hop, Bool.or_true]⟩
  have hplaced : ∀ x, evaluate ts = .ok x → OperatorsPlaced ts := fun x hx =>
    operatorsPlaced_of_gaps ((gaps_eq_seams hts hterm hx).trans hseam.seams_eq_zero)
  refine ⟨hplaced, fun hmisplaced => ?_⟩
  cases hx : evaluate ts with
  | ok x => exact absurd (hplaced x hx) hmisplaced
  | error fault => exact ⟨fault, rfl, (evaluate_isRefusal hts hx).isTold⟩

/-- An operand without a name. -/
def number (text : String) : Token := Token.plain .operand text .blank none

/-- `( 1 + 2 ) × 3`. -/
def wholeSum : Expression :=
  [Token.grouping .opening, number "1", Token.operator .add, number "2", Token.grouping .closing,
    Token.operator .multiply, number "3"]

/-- `( 1 + ) × 3`: the sum lacks its right side, and no seam makes up for that. -/
def halfSum : Expression :=
  [Token.grouping .opening, number "1", Token.operator .add, Token.grouping .closing,
    Token.operator .multiply, number "3"]

/-- The whole sum has a value, and the half one is refused. -/
theorem evaluate_of_seamless_of_sums :
    (∀ t ∈ wholeSum ++ halfSum, t.Checked) ∧
      ((∃ t ∈ wholeSum, t.isOperator = true) ∧ Seamless wholeSum ∧
        (∃ x, evaluate wholeSum = .ok x) ∧ OperatorsPlaced wholeSum) ∧
      (∃ t ∈ halfSum, t.isOperator = true) ∧ Seamless halfSum ∧ ¬OperatorsPlaced halfSum ∧
        ∃ fault, evaluate halfSum = .error fault ∧ fault.kind.isTold = true := by
  have hnumber (text : String) (h : Token.operand text .blank none = .ok (number text)) :
      (number text).Checked := .operand h
  have hone := hnumber "1" (by decide +kernel)
  have htwo := hnumber "2" (by decide +kernel)
  have hthree := hnumber "3" (by decide +kernel)
  have hts : ∀ t ∈ wholeSum ++ halfSum, t.Checked := by
    simp only [wholeSum, halfSum, List.cons_append, List.nil_append, List.forall_mem_cons]
    exact ⟨.grouping _, hone, .operator _, htwo, .grouping _, .operator _, hthree, .grouping _,
      hone, .operator _, .grouping _, .operator _, hthree, fun t ht => absurd ht List.not_mem_nil⟩
  have hwhole : ∃ t ∈ wholeSum, t.isOperator = true :=
    ⟨Token.operator .add, by simp [wholeSum], rfl⟩
  have hhalf : ∃ t ∈ halfSum, t.isOperator = true :=
    ⟨Token.operator .add, by simp [halfSum], rfl⟩
  have hwholeSeam : Seamless wholeSum := by decide +kernel
  have hhalfSeam : Seamless halfSum := by decide +kernel
  have hvalue : ∃ x, evaluate wholeSum = .ok x := by
    have hok : (evaluate wholeSum).isOk = true := by decide +kernel
    cases hx : evaluate wholeSum with
    | ok x => exact ⟨x, rfl⟩
    | error fault => rw [hx] at hok; cases hok
  have hmisplaced : ¬OperatorsPlaced halfSum := fun h => by
    obtain ⟨-, r, hr, hstarts⟩ := h [Token.grouping .opening, number "1"] (Token.operator .add)
      [Token.grouping .closing, Token.operator .multiply, number "3"] rfl rfl
    obtain rfl := Option.some.inj hr
    exact absurd hstarts (by decide)
  obtain ⟨x, hx⟩ := hvalue
  have hall :=
    evaluate_of_seamless (fun t ht => hts t (List.mem_append_left _ ht)) hwhole hwholeSeam
  have hnone :=
    evaluate_of_seamless (fun t ht => hts t (List.mem_append_right _ ht)) hhalf hhalfSeam
  exact ⟨hts, ⟨hwhole, hwholeSeam, ⟨x, hx⟩, hall.1 x hx⟩, hhalf, hhalfSeam, hmisplaced,
    hnone.2 hmisplaced⟩

/-- `1 2 +`: the seam between the numbers makes up for the gap at the end. -/
example : evaluate [number "1", number "2", Token.operator .add] = Number.read "3" := by
  decide +kernel

end Expression

end Keypad
