import Keypad.Number.Reading

/-!
# The language of numerals

Which texts are numerals of a decimal, and which decimal they name, said without scanning. A run is
made of digits with single underscores between them (`IsRun`); an exponent is a letter, a sign and a
run (`SpellsExponent`); a decimal is a run, perhaps a point and a further run, and an exponent
(`Spells`).

* `parseExponent_eq_some_iff`, `parseDecimal_eq_some_iff` — the scanners accept exactly these texts.
* `parse_eq_decimal_iff` — white space at the ends and a sign are all that a numeral adds.
* `Number.read_eq_ok_iff` — what it takes for a text to be the text of a double.
-/

namespace Keypad.Text

/-! ## Digits among the other characters of a numeral -/

/-- A digit of the keypad counts its distance from the zero. -/
theorem digitValue?_of_isDigit {c : Char} (h : c.isDigit = true) :
    digitValue? c = some (c.toNat - 48) := by
  simp only [Char.isDigit, Bool.and_eq_true, decide_eq_true_eq, UInt32.le_iff_toNat_le] at h
  have hrun : isInRun c 0x30 = true := by
    simp only [isInRun, Bool.and_eq_true, decide_eq_true_eq]
    exact ⟨h.1, Nat.lt_succ_of_le h.2⟩
  rw [digitValue?, zeros, List.find?_cons_of_pos hrun]
  rfl

/-- A character that can be read as a digit belongs to the run of a zero. -/
theorem exists_zero_of_digitValue? {c : Char} {d : Nat} (h : digitValue? c = some d) :
    ∃ z ∈ zeros, z ≤ c.toNat ∧ c.toNat < z + 10 := by
  obtain ⟨z, hz, -⟩ := Option.map_eq_some_iff.1 h
  have hrun := List.find?_some hz
  simp only [isInRun, Bool.and_eq_true, decide_eq_true_eq] at hrun
  exact ⟨z, List.mem_of_find?_eq_some hz, hrun⟩

/-- What can be read as a digit is no white space. -/
theorem isBlank_of_digitValue? {c : Char} {d : Nat} (h : digitValue? c = some d) :
    isBlank c = false := by
  obtain ⟨z, hz, hle, hlt⟩ := exists_zero_of_digitValue? h
  have hapart : ∀ z ∈ zeros, ∀ b ∈ blanks, ¬(z ≤ b ∧ b < z + 10) := by decide +kernel
  refine Bool.eq_false_iff.2 fun hb => ?_
  rw [isBlank, List.contains_iff_mem] at hb
  exact hapart z hz _ hb ⟨hle, hlt⟩

/-- No digit is an upper-case letter, so lower case leaves it alone. -/
theorem toLower_of_digitValue? {c : Char} {d : Nat} (h : digitValue? c = some d) :
    c.toLower = c := by
  obtain ⟨z, hz, hle, hlt⟩ := exists_zero_of_digitValue? h
  have hapart : ∀ z ∈ zeros, z + 10 ≤ 65 ∨ 91 ≤ z := by decide +kernel
  unfold Char.toLower
  rw [dif_neg]
  rintro ⟨hA, hZ⟩
  have hA' : 65 ≤ c.toNat := hA
  have hZ' : c.toNat ≤ 90 := hZ
  have := hapart z hz
  omega

end Keypad.Text

namespace Keypad.Numeral

open Keypad.Text

/-! ## Runs of digits -/

/-- Digits with at most one underscore between two of them, and the values of the digits. -/
inductive Run : List Char → List Nat → Prop where
  | nil : Run [] []
  | digit {c : Char} {d : Nat} {cs : List Char} {ds : List Nat} :
      digitValue? c = some d → Run cs ds → Run (c :: cs) (d :: ds)
  | joined {c : Char} {d : Nat} {cs : List Char} {ds : List Nat} :
      digitValue? c = some d → Run cs ds → cs ≠ [] → Run (c :: '_' :: cs) (d :: ds)

/-- A run before this text ends there. -/
def Stops (cs : List Char) : Prop := ∀ c ∈ cs.head?, digitValue? c = none ∧ c ≠ '_'

theorem stops_nil : Stops [] := by
  intro c hc
  cases hc

/-- A run ends before a character that is neither a digit nor an underscore. -/
theorem stops_cons {c : Char} (hc : digitValue? c = none) (hu : c ≠ '_') (cs : List Char) :
    Stops (c :: cs) := by
  intro c' hc'
  cases hc'
  exact ⟨hc, hu⟩

/-- A run that is not empty starts with a digit. -/
theorem Run.head {cs : List Char} {ds : List Nat} (h : Run cs ds) (hne : cs ≠ []) :
    ∃ c rest d, cs = c :: rest ∧ digitValue? c = some d := by
  cases h with
  | nil => exact absurd rfl hne
  | digit hc _ => exact ⟨_, _, _, rfl, hc⟩
  | joined hc _ _ => exact ⟨_, _, _, rfl, hc⟩

/-- A run that is not empty has at least one digit. -/
theorem Run.values_ne_nil {cs : List Char} {ds : List Nat} (h : Run cs ds) (hne : cs ≠ []) :
    ds ≠ [] := by
  cases h with
  | nil => exact absurd rfl hne
  | digit _ _ => exact List.cons_ne_nil _ _
  | joined _ _ _ => exact List.cons_ne_nil _ _

/-- No digit is read where none stands. -/
theorem spanDigits_cons_of_none {c : Char} (h : digitValue? c = none) (cs : List Char) :
    spanDigits (c :: cs) = ([], c :: cs) := by
  unfold spanDigits
  rw [h]

/-- A digit that no underscore follows is read, and the rest on its own. -/
theorem spanDigits_cons {c : Char} {d : Nat} (h : digitValue? c = some d) {cs : List Char}
    (hcs : ∀ c' ∈ cs.head?, c' ≠ '_') :
    spanDigits (c :: cs) = (d :: (spanDigits cs).1, (spanDigits cs).2) := by
  conv =>
    lhs
    unfold spanDigits
  rw [h]
  simp only
  split
  · exact absurd rfl (hcs '_' rfl)
  · rfl

/-- An underscore is read with the digit before it if a digit stands behind it, and else not at all.
-/
theorem spanDigits_cons_underscore {c : Char} {d : Nat} (h : digitValue? c = some d)
    (cs : List Char) :
    spanDigits (c :: '_' :: cs) =
      if startsWithDigit cs then (d :: (spanDigits cs).1, (spanDigits cs).2)
      else ([d], '_' :: cs) := by
  conv =>
    lhs
    unfold spanDigits
  rw [h]
  simp only
  split <;> rfl

/-- Where a run ends no digit is read. -/
theorem spanDigits_of_stops {cs : List Char} (h : Stops cs) : spanDigits cs = ([], cs) := by
  cases cs with
  | nil => rfl
  | cons c cs => exact spanDigits_cons_of_none (h c rfl).1 cs

/-- A run is read up to a text that stops it. -/
theorem Run.spanDigits_append {cs : List Char} {ds : List Nat} (h : Run cs ds) {rest : List Char}
    (hrest : Stops rest) : spanDigits (cs ++ rest) = (ds, rest) := by
  induction h with
  | nil => exact spanDigits_of_stops hrest
  | @digit c d cs ds hc hrun ih =>
    rw [List.cons_append, spanDigits_cons hc, ih]
    -- no underscore follows: neither the rest of the run nor what stops it starts with one
    intro c' hc'
    by_cases hcs : cs = []
    · rw [hcs, List.nil_append] at hc'
      exact (hrest c' hc').2
    · obtain ⟨c₁, rest₁, d₁, rfl, hd₁⟩ := hrun.head hcs
      cases hc'
      rintro rfl
      cases hd₁
  | @joined c d cs ds hc hrun hne ih =>
    obtain ⟨c₁, rest₁, d₁, rfl, hd₁⟩ := hrun.head hne
    have hstart : startsWithDigit (c₁ :: rest₁ ++ rest) = true := by
      rw [List.cons_append, startsWithDigit, hd₁]
      rfl
    rw [List.cons_append, List.cons_append, spanDigits_cons_underscore hc, if_pos hstart, ih]

/-- A run is read to its end. -/
theorem Run.spanDigits_eq {cs : List Char} {ds : List Nat} (h : Run cs ds) :
    spanDigits cs = (ds, []) := by
  have := h.spanDigits_append stops_nil
  rwa [List.append_nil] at this

/-- Two runs behind one another are a run. -/
theorem Run.append {cs cs' : List Char} {ds ds' : List Nat} (h : Run cs ds) (h' : Run cs' ds') :
    Run (cs ++ cs') (ds ++ ds') := by
  induction h with
  | nil => exact h'
  | digit hc _ ih => exact .digit hc ih
  | joined hc _ hne ih => exact .joined hc ih (List.append_ne_nil_of_left_ne_nil hne _)

/-- What ASCII digits count. -/
def keyValues (cs : List Char) : List Nat := cs.map fun c => c.toNat - 48

/-- Digits of the keypad are a run of what they count. -/
theorem Run.of_isDigit {cs : List Char} (h : ∀ c ∈ cs, c.isDigit = true) :
    Run cs (keyValues cs) := by
  induction cs with
  | nil => exact .nil
  | cons c cs ih =>
    exact .digit (digitValue?_of_isDigit (h c List.mem_cons_self))
      (ih fun c' hc' => h c' (List.mem_cons_of_mem _ hc'))

/-- What is read at the front of a text is a run. Behind it there is no digit. -/
theorem exists_run : (cs : List Char) → ∃ run, cs = run ++ (spanDigits cs).2 ∧
    Run run (spanDigits cs).1 ∧ ∀ c ∈ (spanDigits cs).2.head?, digitValue? c = none
  | [] => ⟨[], rfl, .nil, by simp [spanDigits]⟩
  | c :: cs => by
    cases hc : digitValue? c with
    | none =>
      rw [spanDigits_cons_of_none hc]
      refine ⟨[], rfl, .nil, ?_⟩
      intro c' hc'
      cases hc'
      exact hc
    | some d =>
      -- an underscore is part of the run only if a digit stands behind it
      by_cases hcs : ∀ c' ∈ cs.head?, c' ≠ '_'
      · obtain ⟨run, hsplit, hrun, hhead⟩ := exists_run cs
        rw [spanDigits_cons hc hcs]
        exact ⟨c :: run, congrArg (c :: ·) hsplit, .digit hc hrun, hhead⟩
      · obtain ⟨cs, rfl⟩ : ∃ cs', cs = '_' :: cs' := by
          cases cs with
          | nil => exact absurd (by simp) hcs
          | cons c' cs' => exact ⟨cs', by simpa using hcs⟩
        rw [spanDigits_cons_underscore hc]
        split
        · rename_i hstart
          obtain ⟨run, hsplit, hrun, hhead⟩ := exists_run cs
          refine ⟨c :: '_' :: run, congrArg (c :: '_' :: ·) hsplit, .joined hc hrun ?_, hhead⟩
          -- the text behind the underscore starts with a digit, so its run is not empty
          rintro rfl
          rw [List.nil_append] at hsplit
          rw [← hsplit] at hhead
          cases cs with
          | nil => exact absurd hstart (by decide)
          | cons c' cs' =>
            rw [startsWithDigit, hhead c' rfl] at hstart
            exact absurd hstart (by decide)
        · refine ⟨[c], rfl, .digit hc .nil, ?_⟩
          intro c' hc'
          cases hc'
          decide
  termination_by cs => cs.length

/-! ## Exponents -/

/-- The exponent that a text is: nothing, or a letter, a sign and a run. -/
inductive SpellsExponent : List Char → Int → Prop where
  | missing : SpellsExponent [] 0
  | plain {letter : Char} {cs : List Char} {ds : List Nat} : letter = 'e' ∨ letter = 'E' →
      Run cs ds → cs ≠ [] → SpellsExponent (letter :: cs) (ofDigits ds)
  | plus {letter : Char} {cs : List Char} {ds : List Nat} : letter = 'e' ∨ letter = 'E' →
      Run cs ds → cs ≠ [] → SpellsExponent (letter :: '+' :: cs) (ofDigits ds)
  | minus {letter : Char} {cs : List Char} {ds : List Nat} : letter = 'e' ∨ letter = 'E' →
      Run cs ds → cs ≠ [] → SpellsExponent (letter :: '-' :: cs) (-(ofDigits ds))

/-- A run ends before the letter of an exponent. -/
theorem stops_letter {letter : Char} (h : letter = 'e' ∨ letter = 'E') (cs : List Char) :
    Stops (letter :: cs) := by
  rcases h with rfl | rfl
  · exact stops_cons rfl (by decide) cs
  · exact stops_cons rfl (by decide) cs

/-- A run ends before an exponent, or where it is missing. -/
theorem SpellsExponent.stops {cs : List Char} {e : Int} (h : SpellsExponent cs e) : Stops cs := by
  cases h with
  | missing => exact stops_nil
  | plain hl _ _ => exact stops_letter hl _
  | plus hl _ _ => exact stops_letter hl _
  | minus hl _ _ => exact stops_letter hl _

/-- A text that starts with a digit has no sign to split off. -/
theorem Run.splitSign_eq {cs : List Char} {ds : List Nat} (h : Run cs ds) (hne : cs ≠ [])
    (rest : List Char) : splitSign (cs ++ rest) = (false, cs ++ rest) := by
  obtain ⟨c, cs', d, rfl, hd⟩ := h.head hne
  rw [List.cons_append]
  unfold splitSign
  split
  · rename_i heq
    cases heq
    cases hd
  · rename_i heq
    cases heq
    cases hd
  · rfl

/-- Behind the letter a sign is split off, and the rest has to be digits. -/
theorem parseExponent_letter {letter : Char} (hl : letter = 'e' ∨ letter = 'E') (cs : List Char) :
    parseExponent (letter :: cs) =
      match spanDigits (splitSign cs).2 with
      | ([], _) => none
      | (ds, []) => some (if (splitSign cs).1 then -(ofDigits ds) else ofDigits ds)
      | (_, _ :: _) => none := by
  unfold parseExponent
  exact if_pos hl

/-- An exponent of the language is read as its value. -/
theorem SpellsExponent.parse_eq {cs : List Char} {e : Int} (h : SpellsExponent cs e) :
    parseExponent cs = some e := by
  cases h with
  | missing => rfl
  | @plain letter cs ds hl hrun hne =>
    have hsign := hrun.splitSign_eq hne []
    rw [List.append_nil] at hsign
    rw [parseExponent_letter hl, hsign, hrun.spanDigits_eq]
    cases ds with
    | nil => exact absurd rfl (hrun.values_ne_nil hne)
    | cons d ds => rfl
  | @plus letter cs ds hl hrun hne =>
    rw [parseExponent_letter hl, splitSign, hrun.spanDigits_eq]
    cases ds with
    | nil => exact absurd rfl (hrun.values_ne_nil hne)
    | cons d ds => rfl
  | @minus letter cs ds hl hrun hne =>
    rw [parseExponent_letter hl, splitSign, hrun.spanDigits_eq]
    cases ds with
    | nil => exact absurd rfl (hrun.values_ne_nil hne)
    | cons d ds => rfl

/-- A sign that is split off is the first character. -/
theorem splitSign_cases (cs : List Char) :
    (∃ rest, cs = '-' :: rest ∧ splitSign cs = (true, rest)) ∨
      (∃ rest, cs = '+' :: rest ∧ splitSign cs = (false, rest)) ∨ splitSign cs = (false, cs) := by
  unfold splitSign
  split
  · exact .inl ⟨_, rfl, rfl⟩
  · exact .inr (.inl ⟨_, rfl, rfl⟩)
  · exact .inr (.inr rfl)

/-- The scanner accepts the exponents of the language, and reads them as their values. -/
theorem parseExponent_eq_some_iff {cs : List Char} {e : Int} :
    parseExponent cs = some e ↔ SpellsExponent cs e := by
  refine ⟨fun h => ?_, SpellsExponent.parse_eq⟩
  cases cs with
  | nil =>
    cases h
    exact .missing
  | cons letter cs =>
    by_cases hl : letter = 'e' ∨ letter = 'E'
    · rw [parseExponent_letter hl] at h
      -- behind the sign there is a run that is not empty, and nothing behind the run
      obtain ⟨run, hsplit, hrun, -⟩ := exists_run (splitSign cs).2
      generalize hspan : spanDigits (splitSign cs).2 = span at h hsplit hrun
      obtain ⟨ds, rest⟩ := span
      cases ds with
      | nil => cases h
      | cons d ds =>
        cases rest with
        | cons _ _ => cases h
        | nil =>
          rw [List.append_nil] at hsplit
          have hne : run ≠ [] := by
            rintro rfl
            cases hrun
          rcases splitSign_cases cs with ⟨rest, rfl, hsign⟩ | ⟨rest, rfl, hsign⟩ | hsign
          · rw [hsign] at h hsplit
            cases hsplit
            cases h
            exact .minus hl hrun hne
          · rw [hsign] at h hsplit
            cases hsplit
            cases h
            exact .plus hl hrun hne
          · rw [hsign] at h hsplit
            cases hsplit
            cases h
            exact .plain hl hrun hne
    · rw [parseExponent, if_neg hl] at h
      cases h

/-! ## Unsigned decimals -/

/-- The decimal that a text is: a run with or without a fraction behind it, and an exponent. There
is a digit before the point or behind it. -/
inductive Spells : List Char → Decimal → Prop where
  | plain {whole exponent : List Char} {ds : List Nat} {e : Int} : Run whole ds → whole ≠ [] →
      SpellsExponent exponent e → Spells (whole ++ exponent) ⟨ofDigits ds, e⟩
  | pointed {whole fraction exponent : List Char} {ds fs : List Nat} {e : Int} : Run whole ds →
      Run fraction fs → whole ≠ [] ∨ fraction ≠ [] → SpellsExponent exponent e →
      Spells (whole ++ '.' :: (fraction ++ exponent)) ⟨ofDigits (ds ++ fs), e - fs.length⟩

theorem stops_point (cs : List Char) : Stops ('.' :: cs) := stops_cons rfl (by decide) cs

/-- An exponent holds no fraction. -/
theorem SpellsExponent.splitFraction_eq {cs : List Char} {e : Int} (h : SpellsExponent cs e) :
    splitFraction cs = ([], cs) := by
  unfold splitFraction
  split
  · cases h with
    | plain hl _ _ => exact absurd hl (by decide)
    | plus hl _ _ => exact absurd hl (by decide)
    | minus hl _ _ => exact absurd hl (by decide)
  · rfl

/-- A decimal of the language is read as the decimal that it names. -/
theorem Spells.parse_eq {cs : List Char} {d : Decimal} (h : Spells cs d) :
    parseDecimal cs = some d := by
  cases h with
  | @plain whole exponent ds e hrun hne hexp =>
    unfold parseDecimal
    rw [hrun.spanDigits_append hexp.stops]
    simp only [hexp.splitFraction_eq, hexp.parse_eq, List.append_nil, List.length_nil,
      Int.natCast_zero, Int.sub_zero, Option.map_some]
    rw [if_neg]
    simpa using hrun.values_ne_nil hne
  | @pointed whole fraction exponent ds fs e hwhole hfraction hne hexp =>
    unfold parseDecimal
    rw [hwhole.spanDigits_append (stops_point _)]
    simp only [splitFraction, hfraction.spanDigits_append hexp.stops, hexp.parse_eq,
      Option.map_some]
    rw [if_neg]
    rcases hne with hne | hne
    · simp [hwhole.values_ne_nil hne]
    · simp [hfraction.values_ne_nil hne]

/-- The scanner accepts the decimals of the language, and reads them as what they name. -/
theorem parseDecimal_eq_some_iff {cs : List Char} {d : Decimal} :
    parseDecimal cs = some d ↔ Spells cs d := by
  refine ⟨fun h => ?_, Spells.parse_eq⟩
  obtain ⟨whole, hsplit, hwhole, -⟩ := exists_run cs
  unfold parseDecimal at h
  -- the text is the run that is read at its front and what is left of it
  generalize spanDigits cs = span at h hsplit hwhole
  obtain ⟨ds, rest⟩ := span
  simp only at h hsplit hwhole
  subst hsplit
  unfold splitFraction at h
  split at h
  · -- there is a point
    rename_i cs
    obtain ⟨fraction, hsplit, hfraction, -⟩ := exists_run cs
    generalize spanDigits cs = span at h hsplit hfraction
    obtain ⟨fs, rest⟩ := span
    simp only at h hsplit hfraction
    subst hsplit
    split at h
    · cases h
    · rename_i hne
      obtain ⟨e, he, rfl⟩ := Option.map_eq_some_iff.1 h
      refine .pointed hwhole hfraction ?_ (parseExponent_eq_some_iff.1 he)
      -- if both runs were empty, there would be no digit at all
      by_cases hw : whole = []
      · refine .inr fun hf => hne ?_
        subst hw hf
        cases hwhole
        cases hfraction
        rfl
      · exact .inl hw
  · -- there is none, and the fraction is empty
    simp only [List.append_nil, List.length_nil, Int.natCast_zero, Int.sub_zero] at h
    split at h
    · cases h
    · rename_i hne
      obtain ⟨e, he, rfl⟩ := Option.map_eq_some_iff.1 h
      -- without a point the run itself has the digits
      refine .plain hwhole ?_ (parseExponent_eq_some_iff.1 he)
      rintro rfl
      cases hwhole
      exact hne rfl

/-! ## Signed numerals -/

/-- A decimal starts with a digit or with its point. -/
theorem Spells.head {cs : List Char} {d : Decimal} (h : Spells cs d) :
    ∃ c rest, cs = c :: rest ∧ (c = '.' ∨ ∃ v, digitValue? c = some v) := by
  cases h with
  | plain hwhole hne _ =>
    obtain ⟨c, rest, v, rfl, hc⟩ := hwhole.head hne
    exact ⟨c, _, rfl, .inr ⟨v, hc⟩⟩
  | @pointed whole _ _ _ _ _ hwhole _ _ _ =>
    by_cases hw : whole = []
    · subst hw
      exact ⟨'.', _, rfl, .inl rfl⟩
    · obtain ⟨c, rest, v, rfl, hc⟩ := hwhole.head hw
      exact ⟨c, _, rfl, .inr ⟨v, hc⟩⟩

/-- A decimal does not start with a sign. -/
theorem Spells.splitSign_eq {cs : List Char} {d : Decimal} (h : Spells cs d) :
    splitSign cs = (false, cs) := by
  obtain ⟨c, rest, rfl, hc⟩ := h.head
  rcases splitSign_cases (c :: rest) with ⟨_, heq, -⟩ | ⟨_, heq, -⟩ | hsign
  · cases heq
    rcases hc with hc | ⟨v, hv⟩
    · exact absurd hc (by decide)
    · cases hv
  · cases heq
    rcases hc with hc | ⟨v, hv⟩
    · exact absurd hc (by decide)
    · cases hv
  · exact hsign

/-- No decimal is one of the words for infinity and for no number: these start with a letter. -/
theorem Spells.map_toLower_ne {cs : List Char} {d : Decimal} (h : Spells cs d) {letter : Char}
    {word : List Char} (hletter : digitValue? letter = none) (hpoint : letter ≠ '.') :
    cs.map Char.toLower ≠ letter :: word := by
  obtain ⟨c, rest, rfl, hc⟩ := h.head
  intro heq
  have hlower : c.toLower = letter := (List.cons.inj heq).1
  rcases hc with rfl | ⟨v, hv⟩
  · exact hpoint hlower.symm
  · rw [toLower_of_digitValue? hv] at hlower
    rw [hlower, hletter] at hv
    cases hv

/-- A numeral of a decimal is that decimal with white space around it and a sign, if it has one. -/
theorem parse_eq_decimal_iff {cs : List Char} {negative : Bool} {d : Decimal} :
    parse cs = some (.decimal negative d) ↔
      ∃ body, splitSign (trim isBlank cs) = (negative, body) ∧ Spells body d := by
  constructor
  · intro h
    unfold parse at h
    generalize hsign : splitSign (trim isBlank cs) = signed at h
    obtain ⟨n, body⟩ := signed
    simp only at h
    split at h
    · cases h
    · split at h
      · cases h
      · obtain ⟨d', hd', heq⟩ := Option.map_eq_some_iff.1 h
        cases heq
        exact ⟨body, rfl, parseDecimal_eq_some_iff.1 hd'⟩
  · rintro ⟨body, hsign, hbody⟩
    -- the words for infinity and for no number are tried first
    have hinf : ¬(body.map Char.toLower = "inf".toList ∨
        body.map Char.toLower = "infinity".toList) := by
      rintro (h | h)
      · exact hbody.map_toLower_ne rfl (by decide) h
      · exact hbody.map_toLower_ne rfl (by decide) h
    have hnan : body.map Char.toLower ≠ "nan".toList := hbody.map_toLower_ne rfl (by decide)
    unfold parse
    rw [hsign]
    simp only
    rw [if_neg hinf, if_neg hnan, hbody.parse_eq]
    rfl

/-! ## Characters of decimals -/

/-- A character that a decimal can be written with. -/
def IsNumeralChar (c : Char) : Prop :=
  (∃ d, digitValue? c = some d) ∨ c ∈ ['_', '.', 'e', 'E', '+', '-']

/-- No character of a decimal is white space. -/
theorem IsNumeralChar.isBlank_eq {c : Char} (h : IsNumeralChar c) : isBlank c = false := by
  rcases h with ⟨d, hd⟩ | h
  · exact isBlank_of_digitValue? hd
  · have hsigns : ['_', '.', 'e', 'E', '+', '-'].any isBlank = false := by decide
    exact Bool.eq_false_iff.2 (List.any_eq_false.1 hsigns c h)

/-- No character of a decimal is a comma. -/
theorem IsNumeralChar.ne_comma {c : Char} (h : IsNumeralChar c) : c ≠ ',' := by
  rintro rfl
  rcases h with ⟨d, hd⟩ | h
  · cases hd
  · exact absurd h (by decide)

/-- A run is written with characters of decimals. -/
theorem Run.isNumeralChar {cs : List Char} {ds : List Nat} (h : Run cs ds) :
    ∀ c ∈ cs, IsNumeralChar c := by
  induction h with
  | nil => exact List.forall_mem_nil _
  | digit hd _ ih => exact List.forall_mem_cons.2 ⟨.inl ⟨_, hd⟩, ih⟩
  | joined hd _ _ ih =>
    exact List.forall_mem_cons.2 ⟨.inl ⟨_, hd⟩, List.forall_mem_cons.2 ⟨.inr (by decide), ih⟩⟩

/-- The letter of an exponent is a character of decimals. -/
theorem isNumeralChar_letter {letter : Char} (h : letter = 'e' ∨ letter = 'E') :
    IsNumeralChar letter := by
  rcases h with rfl | rfl
  · exact .inr (by decide)
  · exact .inr (by decide)

/-- An exponent is written with characters of decimals. -/
theorem SpellsExponent.isNumeralChar {cs : List Char} {e : Int} (h : SpellsExponent cs e) :
    ∀ c ∈ cs, IsNumeralChar c := by
  cases h with
  | missing => exact List.forall_mem_nil _
  | plain hl hrun _ => exact List.forall_mem_cons.2 ⟨isNumeralChar_letter hl, hrun.isNumeralChar⟩
  | plus hl hrun _ =>
    exact List.forall_mem_cons.2 ⟨isNumeralChar_letter hl,
      List.forall_mem_cons.2 ⟨.inr (by decide), hrun.isNumeralChar⟩⟩
  | minus hl hrun _ =>
    exact List.forall_mem_cons.2 ⟨isNumeralChar_letter hl,
      List.forall_mem_cons.2 ⟨.inr (by decide), hrun.isNumeralChar⟩⟩

/-- A decimal is written with such characters. -/
theorem Spells.isNumeralChar {cs : List Char} {d : Decimal} (h : Spells cs d) :
    ∀ c ∈ cs, IsNumeralChar c := by
  cases h with
  | plain hwhole _ hexp =>
    exact List.forall_mem_append.2 ⟨hwhole.isNumeralChar, hexp.isNumeralChar⟩
  | pointed hwhole hfraction _ hexp =>
    exact List.forall_mem_append.2 ⟨hwhole.isNumeralChar,
      List.forall_mem_cons.2 ⟨.inr (by decide),
        List.forall_mem_append.2 ⟨hfraction.isNumeralChar, hexp.isNumeralChar⟩⟩⟩

/-- A text without white space at its ends is not trimmed. -/
theorem trim_eq_self {cs : List Char} (hhead : ∀ c ∈ cs.head?, isBlank c = false)
    (hlast : ∀ c ∈ cs.getLast?, isBlank c = false) : trim isBlank cs = cs := by
  have hdrop : ∀ cs : List Char, (∀ c ∈ cs.head?, isBlank c = false) →
      cs.dropWhile isBlank = cs := by
    intro cs h
    cases cs with
    | nil => rfl
    | cons c cs => rw [List.dropWhile_cons, h c rfl, if_neg Bool.false_ne_true]
  unfold trim
  rw [hdrop cs hhead, hdrop cs.reverse (by rwa [List.head?_reverse]), List.reverse_reverse]

/-- With a minus in front of it, it still is. -/
theorem Spells.isNumeralChar_signed {cs : List Char} {d : Decimal} (h : Spells cs d)
    (negative : Bool) : ∀ c ∈ (if negative then ['-'] else []) ++ cs, IsNumeralChar c := by
  refine List.forall_mem_append.2 ⟨?_, h.isNumeralChar⟩
  cases negative with
  | false => exact List.forall_mem_nil _
  | true => exact List.forall_mem_singleton.2 (.inr (by decide))

/-- A sign that is written only if it is a minus, and a decimal behind it, are the numeral of the
signed decimal. -/
theorem Spells.parse_signed {cs : List Char} {d : Decimal} (h : Spells cs d) (negative : Bool) :
    parse ((if negative then ['-'] else []) ++ cs) = some (.decimal negative d) := by
  have hchars := h.isNumeralChar_signed negative
  rw [parse_eq_decimal_iff]
  refine ⟨cs, ?_, h⟩
  rw [trim_eq_self (fun c hc => (hchars c (List.mem_of_mem_head? hc)).isBlank_eq)
    (fun c hc => (hchars c (List.mem_of_getLast? hc)).isBlank_eq)]
  cases negative with
  | true => rfl
  | false => exact h.splitSign_eq

end Keypad.Numeral

namespace Keypad.Number

/-- The text without the commas that group it. -/
def ungrouped (text : String) : List Char := text.toList.filter (· != ',')

/-- A text is read as a double when it is the numeral of a decimal that the double is nearest to. -/
theorem read_eq_ok_iff {text : String} {x : Double} :
    read text = .ok x ↔ ∃ negative d,
      Numeral.parse (ungrouped text) = some (.decimal negative d) ∧
        d.toNumber negative = .finite x := by
  constructor
  · intro h
    unfold read ofText? at h
    rw [← ungrouped] at h
    cases hparse : Numeral.parse (ungrouped text) with
    | none =>
      rw [hparse] at h
      cases h
    | some numeral =>
      rw [hparse, Option.map_some] at h
      cases numeral with
      | infinite _ => cases h
      | undefined => cases h
      | decimal negative d =>
        rw [Numeral.toNumber] at h
        refine ⟨negative, d, rfl, ?_⟩
        cases hnumber : d.toNumber negative with
        | finite y =>
          rw [hnumber] at h
          cases h
          rfl
        | infinite _ =>
          rw [hnumber] at h
          cases h
        | undefined =>
          rw [hnumber] at h
          cases h
  · rintro ⟨negative, d, hparse, hnumber⟩
    unfold read ofText?
    rw [← ungrouped, hparse, Option.map_some, Numeral.toNumber, hnumber]

/-- The text that is read when a sign, if it is a minus, is put before a decimal. -/
theorem parse_ofList_of_spells {cs : List Char} {d : Decimal} (h : Numeral.Spells cs d)
    (negative : Bool) :
    Numeral.parse (ungrouped (String.ofList ((if negative then ['-'] else []) ++ cs))) =
      some (.decimal negative d) := by
  have hcommas : ungrouped (String.ofList ((if negative then ['-'] else []) ++ cs)) =
      (if negative then ['-'] else []) ++ cs := by
    rw [ungrouped, String.toList_ofList, List.filter_eq_self]
    exact fun c hc => bne_iff_ne.2 (h.isNumeralChar_signed negative c hc).ne_comma
  rw [hcommas, h.parse_signed]

/-- A decimal that is not too large is read as the double it stands for. -/
theorem read_ofList_of_spells {cs : List Char} {d : Decimal} (h : Numeral.Spells cs d)
    {negative : Bool} {x : Double} (hx : d.toNumber negative = .finite x) :
    read (String.ofList ((if negative then ['-'] else []) ++ cs)) = .ok x :=
  read_eq_ok_iff.2 ⟨negative, d, parse_ofList_of_spells h negative, hx⟩

/-- Two texts of one decimal are read alike. -/
theorem read_ofList_congr {cs cs' : List Char} {d : Decimal} {x : Double} (h : Numeral.Spells cs d)
    (h' : Numeral.Spells cs' d) (hx : read (String.ofList cs) = .ok x) :
    read (String.ofList cs') = .ok x := by
  have hparse := parse_ofList_of_spells h false
  have hparse' := parse_ofList_of_spells h' false
  simp only [Bool.false_eq_true, if_false, List.nil_append] at hparse hparse'
  obtain ⟨negative, d', hd', hnumber⟩ := read_eq_ok_iff.1 hx
  rw [hparse] at hd'
  cases hd'
  exact read_eq_ok_iff.2 ⟨false, d, hparse', hnumber⟩

/-- A readable text is one that is read as a double. -/
theorem isReadable_iff {text : String} : isReadable text = true ↔ ∃ x, read text = .ok x := by
  unfold isReadable
  cases read text with
  | ok x => simp
  | error fault => simp

end Keypad.Number
