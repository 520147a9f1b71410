import Keypad.Proofs.Expression.Conservation
import Keypad.Proofs.Machine.Erasing
import Keypad.Proofs.Machine.TextMoves

/-!
# The sign key

The sign key edits the text in the buffer, and means to negate the number there. It does so unless
the text has something else than a minus in front of its digits: a minus before a plus or before
white space cannot be read. Nothing that is typed, edited or computed looks like that, only a number
that was kept may.

* `negates_iff`        — when the key negates the number, on any machine.
* `not_signSpoils_run` — a run that recalls no such text comes to none.
* `run_negates_iff`    — both, for every machine that a run leads to.
-/

namespace Keypad

open Keypad.Numeral Keypad.Number

namespace Buffer

variable {text : String} {x : Double}

/-! ## The edited text -/

/-- No number has two minuses in front. -/
theorem toggleSign_toggleSign (h : read text = .ok x) : toggleSign (toggleSign text) = text := by
  rcases minus_cases text with ⟨rest, rfl⟩ | hminus
  · obtain ⟨d, body, behind, heq, hbody, -⟩ := exists_decimal_of_minus h
    have hhead : (String.ofList rest).toList.head? ≠ some '-' := by
      rw [String.toList_ofList]
      -- were there a second minus, it would stand at the head of the digits
      intro hhead
      obtain ⟨rest', rfl⟩ := List.head?_eq_some_iff.1 hhead
      rw [ungrouped_minus_cons] at heq
      exact hbody.not_isLead_append '-' (by rw [← heq]; rfl) (.inr (.inr rfl))
    rw [toggleSign_of_minus, toggleSign_of_ne_minus hhead, String.toList_ofList]
  · rw [toggleSign_of_ne_minus hminus, toggleSign_of_minus, String.ofList_toList]

/-! ## Texts that take a sign -/

/-- What spoils the sign of a front of the text spoils that of the text. -/
theorem SignSpoils.of_isPrefix {front : String} (h : SignSpoils front)
    (hfront : front.toList <+: text.toList) : SignSpoils text := by
  obtain ⟨hminus, c, hc, hlead⟩ := h
  obtain ⟨rest, hrest⟩ := hfront
  have hungrouped : ungrouped text = ungrouped front ++ rest.filter (· != ',') := by
    rw [ungrouped, ungrouped, ← hrest, List.filter_append]
  have hne : front.toList.head? ≠ none := by
    rw [Ne, List.head?_eq_none_iff]
    intro hnil
    rw [ungrouped, hnil] at hc
    cases hc
  obtain ⟨c', hc'⟩ := Option.ne_none_iff_exists'.1 hne
  refine ⟨?_, c, ?_, hlead⟩
  · rwa [← hrest, List.head?_append, hc', Option.some_or, ← hc']
  · rw [hungrouped, List.head?_append, hc]
    rfl

/-- A character behind a text does not spoil its sign, unless it is the first that counts. -/
theorem SignSpoils.of_push {c : Char} (h : SignSpoils (text.push c)) (hlead : ¬IsLead c)
    (hcomma : c ≠ ',') : SignSpoils text := by
  obtain ⟨hminus, c', hc', hlead'⟩ := h
  rw [ungrouped_push hcomma, List.head?_append] at hc'
  rw [String.toList_push, List.head?_append] at hminus
  -- the character counts as the first one only if nothing but commas stands before it
  cases hhead : (ungrouped text).head? with
  | none =>
    rw [hhead] at hc'
    cases hc'
    exact absurd hlead' hlead
  | some c'' =>
    rw [hhead] at hc'
    cases hc'
    refine ⟨fun hfirst => hminus ?_, c', hhead, hlead'⟩
    rw [hfirst]
    rfl

/-- Neither a digit nor the point is white space or a sign. -/
theorem not_isLead_of_isKey {key : Char} (h : isKey key = true) : ¬IsLead key := by
  have hkey : key.isDigit = true ∨ key = '.' := by simpa [isKey] using h
  rintro (hblank | rfl | rfl)
  · rcases hkey with hdigit | rfl
    · rw [Text.isBlank_of_digitValue? (Text.digitValue?_of_isDigit hdigit)] at hblank
      cases hblank
    · revert hblank
      decide
  · revert h
    decide
  · revert h
    decide

/-- No key types a comma. -/
theorem ne_comma_of_isKey {key : Char} (h : isKey key = true) : key ≠ ',' := by
  rintro rfl
  revert h
  decide

theorem SignSpoils.of_push_key {key : Char} (h : SignSpoils (text.push key))
    (hkey : isKey key = true) : SignSpoils text :=
  h.of_push (not_isLead_of_isKey hkey) (ne_comma_of_isKey hkey)

/-- Typing a key does not spoil the sign of a text. -/
theorem SignSpoils.of_type {key : Char} (h : SignSpoils (type text key))
    (hkey : isKey key = true) : SignSpoils text := by
  unfold type typePoint typeDigit at h
  split at h
  · split at h
    · exact h
    · exact h.of_push (by rintro (h | h | h) <;> revert h <;> decide) (by decide)
  · split at h
    · split at h
      · exact h
      · exact (h.of_push_key hkey).of_isPrefix (isPrefix_dropLast text)
    · exact h.of_push_key hkey

theorem not_signSpoils_empty : ¬SignSpoils "" := fun ⟨_, _, hc, _⟩ => by cases hc

theorem not_signSpoils_start : ¬SignSpoils start := fun h =>
  not_signSpoils_empty (SignSpoils.of_push_key (show SignSpoils ("".push '0') from h) rfl)

/-- The text of a first key takes a sign. -/
theorem not_signSpoils_first {key : Char} (hkey : isKey key = true) : ¬SignSpoils (first key) := by
  unfold first
  split
  · intro h
    exact not_signSpoils_start (SignSpoils.of_push_key (show SignSpoils ("0".push '.') from h) rfl)
  · intro h
    exact not_signSpoils_empty (SignSpoils.of_push_key (show SignSpoils ("".push key) from h) hkey)

/-- Erasing does not spoil the sign of a text, since it leaves a front of it or a zero. -/
theorem SignSpoils.of_erase (h : SignSpoils (erase text)) : SignSpoils text := by
  unfold erase at h
  split at h
  · exact h.of_isPrefix (isPrefix_cut text)
  · exact absurd h not_signSpoils_start

/-- After the edit the sign can always be changed again. -/
theorem not_signSpoils_toggleSign (h : read text = .ok x) : ¬SignSpoils (toggleSign text) := by
  rintro ⟨hminus, c, hc, hlead⟩
  rcases minus_cases text with ⟨rest, rfl⟩ | hfirst
  · obtain ⟨d, body, behind, heq, hbody, -⟩ := exists_decimal_of_minus h
    rw [toggleSign_of_minus, heq] at hc
    exact hbody.not_isLead_append c hc hlead
  · rw [toggleSign_of_ne_minus hfirst, String.toList_ofList] at hminus
    exact hminus rfl

/-- A decimal with a minus or without a sign takes one. -/
theorem not_signSpoils_of_spells {cs : List Char} {d : Decimal} (h : Spells cs d)
    (negative : Bool) : ¬SignSpoils (String.ofList ((if negative then ['-'] else []) ++ cs)) := by
  rintro ⟨hminus, c, hc, hlead⟩
  cases negative with
  | true => exact hminus (by rw [String.toList_ofList]; rfl)
  | false =>
    obtain ⟨c', cs', rfl, -⟩ := h.head
    have hcomma : (c' != ',') = true :=
      bne_iff_ne.2 (h.isNumeralChar c' List.mem_cons_self).ne_comma
    rw [if_neg Bool.false_ne_true, List.nil_append, ungrouped, String.toList_ofList,
      List.filter_cons_of_pos (p := (· != ',')) hcomma] at hc
    cases hc
    exact h.not_isLead _ rfl hlead

end Buffer

namespace Double

open Buffer

/-- The canonical text of a number takes a sign. -/
theorem not_signSpoils_canonicalText (x : Double) : ¬SignSpoils x.canonicalText := by
  obtain ⟨cs, d, htext, hspells, -⟩ := x.exists_spells_canonicalText
  rw [htext]
  exact not_signSpoils_of_spells hspells _

/-- The text of a result takes a sign. -/
theorem not_signSpoils_resultText (x : Double) : ¬SignSpoils x.resultText := by
  unfold resultText
  dsimp only
  split
  · exact x.not_signSpoils_canonicalText
  · next hlong =>
    obtain ⟨cs, d, htext, hspells, -⟩ :=
      exists_spells_exponentialText resultPlaces (isZero_eq_false_of_long hlong)
    rw [htext]
    exact not_signSpoils_of_spells hspells x.negative

end Double

namespace Machine

open Outcome

variable {m : Machine} {x : Double}

/-! ## The key on a machine -/

/-- The sign key makes the number its negative, and pressed again it takes that back. -/
structure Negates (m : Machine) (x : Double) : Prop where
  read : read m.toggleSign.machine.buffer = .ok x.neg
  back : m.toggleSign.machine.toggleSign.machine = m.quiet

/-- The key leaves a zero as it is. -/
theorem toggleSign_of_zero (hm : m.failed = false) (hread : Number.read m.buffer = .ok x)
    (hx : x.isZero = true) : m.toggleSign.machine = m.quiet := by
  rw [toggleSign, guarded_of_not_failed hm, show Number.read m.quiet.buffer = .ok x from hread]
  dsimp only [done]
  rw [if_pos hx]

/-- The key edits the text of any other number. -/
theorem toggleSign_of_nonzero (hm : m.failed = false) (hread : Number.read m.buffer = .ok x)
    (hx : x.isZero = false) :
    m.toggleSign.machine = { m.quiet with buffer := Buffer.toggleSign m.buffer } := by
  rw [toggleSign, guarded_of_not_failed hm, show Number.read m.quiet.buffer = .ok x from hread]
  dsimp only [done]
  rw [if_neg (Bool.eq_false_iff.1 hx)]
  rfl

/-- The key negates a number other than zero exactly if a minus can be read before it. -/
theorem negates_iff (hm : m.failed = false) (hread : Number.read m.buffer = .ok x)
    (hx : x.isZero = false) : m.Negates x ↔ ¬Buffer.SignSpoils m.buffer := by
  have hreadable : isReadable m.buffer = true := isReadable_iff.2 ⟨x, hread⟩
  have hpress := toggleSign_of_nonzero hm hread hx
  constructor
  · rintro ⟨hneg, -⟩
    rw [hpress] at hneg
    exact (Buffer.isReadable_toggleSign_iff hreadable).1 (isReadable_iff.2 ⟨_, hneg⟩)
  · intro hspoils
    have hneg := Buffer.read_toggleSign hread hspoils
    have hx' : x.neg.isZero = false := hx
    refine ⟨by rw [hpress]; exact hneg, ?_⟩
    rw [hpress, toggleSign_of_nonzero (m := { m.quiet with buffer := Buffer.toggleSign m.buffer })
      hm hneg hx']
    dsimp only
    rw [Buffer.toggleSign_toggleSign hread]
    rfl

/-! ## Where a text that takes no sign comes from -/

/-- The error marker begins with a letter, so it takes a sign too. -/
theorem not_signSpoils_errorMarker : ¬Buffer.SignSpoils errorMarker := by
  rintro ⟨-, c, hc, hlead⟩
  obtain rfl : 'E' = c := Option.some.inj hc
  rcases hlead with hblank | hplus | hminus
  · revert hblank
    decide
  · cases hplus
  · cases hminus

/-- A text that takes a sign is left with one that does, unless another kind is recalled. -/
theorem TextMove.not_signSpoils {p : String → Prop} {text text' : String}
    (h : TextMove p text text') (hp : ∀ value, p value → ¬Buffer.SignSpoils value)
    (htext : ¬Buffer.SignSpoils text) : ¬Buffer.SignSpoils text' := by
  cases h with
  | keep => exact htext
  | start => exact Buffer.not_signSpoils_start
  | fail => exact not_signSpoils_errorMarker
  | first hkey => exact Buffer.not_signSpoils_first hkey
  | type hkey => exact fun h => htext (h.of_type hkey)
  | erase => exact fun h => htext h.of_erase
  | sign hread => exact Buffer.not_signSpoils_toggleSign hread
  | percent x => exact x.not_signSpoils_canonicalText
  | result x => exact x.not_signSpoils_resultText
  | recalled hvalue => exact hp _ hvalue

/-- The numbers that the action can recall all take a sign. -/
def RecallsSigned (m : Machine) (action : Action) : Prop :=
  ∀ value, action.Recalls m value → ¬Buffer.SignSpoils value

/-- A run that recalls no text with a spoilt sign comes to none. -/
theorem not_signSpoils_run (hentries : ∀ e ∈ m.history.entries, e.IsCalculated)
    (hbuffer : ¬Buffer.SignSpoils m.buffer) {actions : List Action}
    (h : Along RecallsSigned m actions) : ¬Buffer.SignSpoils (m.run actions).buffer := by
  induction actions generalizing m with
  | nil => exact hbuffer
  | cons action actions ih =>
    -- every text on the way is one that an action typed, edited, computed or recalled
    have hmove := perform_textMove hentries action
    rw [run_cons]
    refine ih ?_ (hmove.not_signSpoils h.1 hbuffer) h.2
    exact forall_mem_entries_perform hentries fun _ => isCalculated_of_calculation?

/-- On every machine that a run leads to outside the error state: a zero is left as it is; another
number is negated, and comes back with the next press, exactly if its text does not have a plus, a
second minus or white space where the minus would go; and it has none if no such text was recalled
on the way. -/
theorem run_negates_iff (limit : Nat) {actions : List Action}
    (hrun : (new (.ofLimit limit)).run actions = m) (hm : m.failed = false)
    (hread : Number.read m.buffer = .ok x) :
    (x.isZero = true → m.toggleSign.machine = m.quiet) ∧
      (x.isZero = false → (m.Negates x ↔ ¬Buffer.SignSpoils m.buffer)) ∧
      (Along RecallsSigned (new (.ofLimit limit)) actions → ¬Buffer.SignSpoils m.buffer) := by
  refine ⟨toggleSign_of_zero hm hread, negates_iff hm hread, fun h => ?_⟩
  rw [← hrun]
  exact not_signSpoils_run (fun e he => absurd he List.not_mem_nil)
    (show ¬Buffer.SignSpoils (new (.ofLimit limit)).buffer from Buffer.not_signSpoils_start) h

/-- The machine on which a number that was just saved is recalled. -/
def recalling (text : String) : Machine :=
  (new (.ofLimit 0)).run [.save "rate" text none none, .retrieve "rate"]

/-- A grouped number with an underscore, an exponent and white space behind it takes a sign, and a
five with a plus does not. -/
theorem run_negates_iff_of_recalling :
    ((recalling "-1,2_5e1 ").failed = false ∧ (recalling "+5").failed = false) ∧
      (∃ x, Number.read (recalling "-1,2_5e1 ").buffer = .ok x ∧ x.isZero = false ∧
        (recalling "-1,2_5e1 ").Negates x) ∧
      ∃ x, Number.read (recalling "+5").buffer = .ok x ∧ x.isZero = false ∧
        ¬(recalling "+5").Negates x := by
  have hnumber (text : String) (h : (Number.read (recalling text).buffer).map Double.isZero =
      .ok false) : ∃ x, Number.read (recalling text).buffer = .ok x ∧ x.isZero = false :=
    exists_of_map_ok h
  obtain ⟨x, hx, hzero⟩ := hnumber "-1,2_5e1 " (by decide +kernel)
  obtain ⟨y, hy, hzero'⟩ := hnumber "+5" (by decide +kernel)
  have hplus : (recalling "+5").buffer = "+5" := by decide +kernel
  have hspoils : Buffer.SignSpoils (recalling "+5").buffer := by
    rw [hplus]
    exact ⟨by decide, '+', by decide, .inr (.inl rfl)⟩
  have hrecalls : Along RecallsSigned (new (.ofLimit 0))
      [.save "rate" "-1,2_5e1 " none none, .retrieve "rate"] := by
    refine ⟨fun _ => False.elim, ?_, trivial⟩
    rintro _ ⟨v, hv, rfl⟩
    have hvalue : (findVariable ((new (.ofLimit 0)).perform
        (.save "rate" "-1,2_5e1 " none none)).machine "rate").map Variable.value =
          .ok "-1,2_5e1 " := by decide +kernel
    rw [hv] at hvalue
    rw [Except.ok.inj hvalue]
    exact fun h => h.1 (by decide)
  have hm : (recalling "-1,2_5e1 ").failed = false := by decide +kernel
  have hm' : (recalling "+5").failed = false := by decide +kernel
  obtain ⟨-, hnegates, hsigned⟩ := run_negates_iff 0 rfl hm hx
  obtain ⟨-, hnegates', -⟩ := run_negates_iff 0 rfl hm' hy
  exact ⟨⟨hm, hm'⟩, ⟨x, hx, hzero, (hnegates hzero).2 (hsigned hrecalls)⟩, y, hy, hzero',
    fun h => (hnegates' hzero').1 h hspoils⟩

end Machine

end Keypad
