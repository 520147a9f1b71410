import Keypad.Console.Session
import Keypad.Proofs.Lexeme.Feedables
import Keypad.Proofs.Machine.TypedExpression
import Keypad.Proofs.Machine.TypedKeys

/-!
# Key text of an expression

A sentence of the grammar is fed to the machine as key text, with white space anywhere between its
symbols, and `calculate` gives the value of its tree. The proof follows the tree: reading the text
of a subtree takes a machine that awaits a number to one that has typed the row of the subtree,
whatever text comes next (`feedChars_written`).

* `calculate_written` — feeding a sentence to a machine that has been cleared or has calculated.
-/

namespace Keypad

open Keypad.Text

/-- Nothing but white space. -/
def Blank (cs : List Char) : Prop := ∀ c ∈ cs, isBlank c = true

/-- The key text of a tree: its literals as they are, an operator in any of its spellings, and white
space wherever two symbols meet. -/
inductive Written : Expression.Tree Literal → List Char → Prop where
  | leaf (l : Literal) : Written (.leaf l) l.keys
  | group {e : Expression.Tree Literal} {cs before behind : List Char} : Written e cs →
      Blank before → Blank behind →
      Written (.group e) ('(' :: (before ++ (cs ++ (behind ++ [')']))))
  | node {op : Operator} {l r : Expression.Tree Literal} {cs cs' before behind : List Char}
      {spelling : String} : Written l cs → Written r cs' → Operator.read spelling = .ok op →
      Blank before → Blank behind →
      Written (.node op l r) (cs ++ (before ++ (spelling.toList ++ (behind ++ cs'))))

/-- A line that holds the key text of a tree and white space around it. -/
def WrittenLine (t : Expression.Tree Literal) (line : String) : Prop :=
  ∃ before cs behind, line.toList = before ++ (cs ++ behind) ∧ Blank before ∧ Blank behind ∧
    Written t cs

/-- A literal is cut off whole where no further key of a number follows. -/
theorem Literal.numberLength_append (l : Literal) {rest : List Char}
    (hrest : Form.EndsNumber rest) :
    Form.numberLength (l.keys ++ rest) = l.keys.length := by
  rcases Buffer.digits_or_pointed l.isKey l.points with
    hdigits | ⟨whole, fraction, hkeys, hwhole, hfraction⟩
  · exact Form.numberLength_of_digits (fun c hc => isDigit_of_char_isDigit (hdigits c hc)) hrest
  · rw [hkeys, List.append_assoc, List.cons_append]
    exact Form.numberLength_of_point (fun c hc => isDigit_of_char_isDigit (hwhole c hc))
      (fun c hc => isDigit_of_char_isDigit (hfraction c hc)) hrest

namespace Console

open Machine Machine.Outcome

/-! ## Symbol by symbol -/

/-- `feed` on characters, so that a front can be split off. -/
def feedChars (m : Machine) (cs : List Char) : Outcome Emission :=
  (carryOutLexemes m (Lexeme.scan cs).1).andThen fun m =>
    ⟨m, Lexeme.unlexedFault? (Lexeme.scan cs).2, []⟩

variable {m m' : Machine}

/-- Once the lexeme at the front is known, it is carried out and the rest is fed on its own. -/
theorem feedChars_append {cs rest : List Char} {form : Form}
    (h : Lexeme.measure? (cs ++ rest) = some (form, cs.length)) (hne : cs ≠ []) :
    feedChars m (cs ++ rest) = (carryOutLexeme m ⟨form, cs⟩).andThen fun m => feedChars m rest := by
  unfold feedChars
  rw [Lexeme.scan_append h hne, carryOutLexemes, andThen_assoc]

/-- Nothing changes nothing. -/
theorem feedChars_nil (m : Machine) : (feedChars m []).ending = (m, none) := by
  unfold feedChars
  rw [Lexeme.scan]
  rfl

/-- White space asks for nothing, so it can be left out. -/
theorem carryOutLexemes_filter (m : Machine) (lexemes : List Lexeme) :
    carryOutLexemes m (lexemes.filter Lexeme.isFeedable) = carryOutLexemes m lexemes := by
  induction lexemes generalizing m with
  | nil => rfl
  | cons lexeme lexemes ih =>
    cases hfeedable : lexeme.isFeedable with
    | true =>
      rw [List.filter_cons_of_pos hfeedable, carryOutLexemes, carryOutLexemes]
      simp only [ih]
    | false =>
      have hform : lexeme.form = .space := by
        rwa [Lexeme.isFeedable, bne_eq_false_iff_eq] at hfeedable
      have hspace : carryOutLexeme m lexeme = done m := by
        rw [carryOutLexeme, Lexeme.commands, hform]
        rfl
      rw [List.filter_cons_of_neg (Bool.eq_false_iff.1 hfeedable), ih, carryOutLexemes, hspace,
        done_andThen]

/-- Feeding a text only takes the lexemes that ask for something, and the rest. -/
theorem feedChars_eq (m : Machine) (cs : List Char) :
    feedChars m cs =
      (carryOutLexemes m (Lexeme.feedables cs).1).andThen fun m =>
        ⟨m, Lexeme.unlexedFault? (Lexeme.feedables cs).2, []⟩ := by
  rw [Lexeme.feedables, carryOutLexemes_filter]
  rfl

/-- White space changes nothing, even before more of it. -/
theorem feedChars_blank {cs : List Char} (h : Blank cs) (m : Machine) (rest : List Char) :
    feedChars m (cs ++ rest) = feedChars m rest := by
  rw [feedChars_eq, Lexeme.feedables_blank_append h, ← feedChars_eq]

theorem act_ending (m : Machine) (action : Action) :
    (act m action).ending = (m.perform action).ending := rfl

/-- Keys of a number are pressed one after the other, in every state. -/
theorem carryOutAll_presses {keys : List Char} (hkeys : ∀ c ∈ keys, Buffer.isKey c = true)
    (m : Machine) (more : List Command) :
    (carryOutAll m ((presses keys).map .act ++ more)).ending =
      (carryOutAll (m.run (presses keys)) more).ending := by
  induction keys generalizing m with
  | nil => rfl
  | cons key keys ih =>
    obtain ⟨hkey, hkeys⟩ := List.forall_mem_cons.1 hkeys
    have hact : (act m (.digit (String.singleton key))).ending =
        ((m.perform (.digit (String.singleton key))).machine, none) :=
      Prod.ext rfl (perform_key_fault hkey m)
    exact (ending_andThen hact _).trans (ih hkeys _)

/-- The lexeme of a number presses its characters as keys. -/
theorem commands_number (text : List Char) :
    Lexeme.commands ⟨.number, text⟩ = .ok ((presses text).map .act) := by
  simp [Lexeme.commands, presses, Function.comp_def]

/-- A literal that is not followed by another key of a number is typed onto the zero. -/
theorem feedChars_literal (hm : m.AwaitsNumber) (l : Literal) {rest : List Char}
    (hrest : Form.EndsNumber rest) :
    (feedChars m (l.keys ++ rest)).ending = (feedChars (m.entering l.typedText) rest).ending := by
  have hlength := l.numberLength_append hrest
  have hmeasure : Lexeme.measure? (l.keys ++ rest) = some (.number, l.keys.length) := by
    rw [← hlength]
    refine Lexeme.measure?_number ?_
    rw [hlength]
    exact mt List.length_eq_zero_iff.1 l.keys_ne_nil
  have hrun : m.run (presses l.keys) = m.entering l.typedText :=
    (run_presses hm.failed l.isKey).2.trans (hm.foldl_typeKey l.keys_ne_nil l.isKey)
  have hpresses := carryOutAll_presses l.isKey m []
  rw [List.append_nil, hrun] at hpresses
  have hcarry : (carryOutLexeme m ⟨.number, l.keys⟩).ending = (m.entering l.typedText, none) := by
    rw [carryOutLexeme, commands_number]
    exact hpresses
  rw [feedChars_append hmeasure l.keys_ne_nil]
  exact ending_andThen hcarry _

/-- A symbol of one character that asks for one action. -/
theorem feedChars_symbol {c : Char} {form : Form} {action : Action} {rest : List Char}
    (hmeasure : Lexeme.measure? (c :: rest) = some (form, 1))
    (hcommands : Lexeme.commands ⟨form, [c]⟩ = .ok [.act action])
    (hend : (m.perform action).ending = (m', none)) :
    (feedChars m (c :: rest)).ending = (feedChars m' rest).ending := by
  have hfront : Lexeme.measure? ([c] ++ rest) = some (form, [c].length) := hmeasure
  have hcarry : (carryOutLexeme m ⟨form, [c]⟩).ending = (m', none) := by
    rw [carryOutLexeme, hcommands]
    exact ending_andThen ((act_ending m action).trans hend) _
  rw [← List.singleton_append, feedChars_append hfront (List.cons_ne_nil _ _)]
  exact ending_andThen hcarry _

/-- An operator in one of its spellings. -/
theorem feedChars_spelling {op : Operator} {spelling : String}
    (hop : Operator.read spelling = .ok op) (hm : m.failed = false)
    (hend : (m.quiet.typeOperator op).ending = (m', none)) (rest : List Char) :
    (feedChars m (spelling.toList ++ rest)).ending = (feedChars m' rest).ending := by
  have hmem := Operator.mem_operatorTexts_of_read hop
  obtain ⟨c, rfl, -⟩ := Form.exists_singleton_of_mem (List.mem_append_left _ hmem)
  have hperform : (m.perform (.operator (String.singleton c))).ending = (m', none) := by
    rw [perform, pressOperator, hop, checking, guarded_of_not_failed hm]
    exact hend
  rw [String.toList_singleton]
  refine feedChars_symbol (Lexeme.measure?_operator hmem rest) ?_ hperform
  rw [Lexeme.commands, ← String.singleton_eq_ofList]

/-- A grouping mark. -/
theorem feedChars_mark (mark : Mark) (hm : m.failed = false)
    (hend : (m.quiet.typeMark mark).ending = (m', none)) (rest : List Char) :
    (feedChars m (mark.text.toList ++ rest)).ending = (feedChars m' rest).ending := by
  have hmem : mark.text ∈ Form.markTexts := by cases mark <;> decide
  have hread := readMark_text mark
  obtain ⟨c, htext, -⟩ := Form.exists_singleton_of_mem (List.mem_append_right _ hmem)
  rw [htext] at hmem hread ⊢
  have hperform : (m.perform (.parenthesis (String.singleton c))).ending = (m', none) := by
    rw [perform, pressMark, hread, checking, guarded_of_not_failed hm]
    exact hend
  rw [String.toList_singleton]
  refine feedChars_symbol (Lexeme.measure?_mark hmem rest) ?_ hperform
  rw [Lexeme.commands, ← String.singleton_eq_ofList]

/-! ## Tree by tree -/

/-- A number ends before white space. -/
theorem endsNumber_blank {cs rest : List Char} (h : Blank cs) (hrest : Form.EndsNumber rest) :
    Form.EndsNumber (cs ++ rest) := by
  cases cs with
  | nil => exact hrest
  | cons c cs =>
    have hc := h c List.mem_cons_self
    intro c' hc'
    cases hc'
    refine ⟨isDigit_of_isBlank hc, ?_⟩
    rintro rfl
    cases hc

/-- A number ends before an operator or a mark. -/
theorem endsNumber_symbol {text : String} (h : text ∈ Form.operatorTexts ++ Form.markTexts)
    (rest : List Char) : Form.EndsNumber (text.toList ++ rest) := by
  obtain ⟨c, rfl, hends⟩ := Form.exists_singleton_of_mem h
  rw [String.toList_singleton]
  exact hends

/-- Reading the text of a tree types the row of the tree. The induction is on the text; whatever
comes next must not go on with the last number. -/
theorem feedChars_written {t : Expression.Tree Literal} {cs : List Char} (h : Written t cs)
    (hm : m.AwaitsNumber) :
    ∃ m' : Machine,
      m'.Typed (m.committed ++ Literal.row t m.nextIdent) (m.nextIdent + t.size) ∧
        m'.failed = false ∧ m'.history = m.history ∧
        ∀ rest, Form.EndsNumber rest →
          (feedChars m (cs ++ rest)).ending = (feedChars m' rest).ending := by
  induction h generalizing m with
  | leaf l =>
    exact ⟨m.entering l.typedText, typed_entering m l, hm.failed, rfl, fun rest hrest =>
      feedChars_literal hm l hrest⟩
  | @group e cs before behind _ hbefore hbehind ih =>
    have hopening : (m.quiet.typeMark .opening).ending = (m.quiet.appendMark .opening, none) := by
      rw [hm.quiet.typeOpening]
      rfl
    -- behind the opening mark a number is awaited as before
    obtain ⟨m₁, htyped₁, hfailed₁, hhistory₁, hfeed₁⟩ :=
      ih (m := m.quiet.appendMark .opening) hm.quiet.appendOpening
    obtain ⟨m₂, hclosing, htyped₂, hfailed₂, hhistory₂⟩ := htyped₁.quiet.typeClosing
    refine ⟨m₂, ?_, hfailed₂.trans hfailed₁, hhistory₂.trans hhistory₁, fun rest _ => ?_⟩
    · have hrow : (m.quiet.appendMark .opening).committed ++ Literal.row e m.nextIdent ++
          [Token.grouping .closing] = m.committed ++ Literal.row (.group e) m.nextIdent := by
        simp only [Literal.row_group, appendMark, quiet, List.append_assoc, List.cons_append,
          List.nil_append]
      exact hrow ▸ htyped₂
    · have hends : Form.EndsNumber (behind ++ (Mark.closing.text.toList ++ rest)) :=
        endsNumber_blank hbehind (endsNumber_symbol (by decide) rest)
      have htext : '(' :: (before ++ (cs ++ (behind ++ [')']))) ++ rest =
          Mark.opening.text.toList ++
            (before ++ (cs ++ (behind ++ (Mark.closing.text.toList ++ rest)))) := by
        simp [Mark.text]
      rw [htext, feedChars_mark .opening hm.failed hopening, feedChars_blank hbefore,
        hfeed₁ _ hends, feedChars_blank hbehind,
        feedChars_mark .closing hfailed₁ hclosing]
  | @node op l r cs cs' before behind spelling _ _ hop hbefore hbehind ihl ihr =>
    obtain ⟨m₁, htyped₁, hfailed₁, hhistory₁, hfeed₁⟩ := ihl hm
    obtain ⟨m₂, hoperator, hs, hcommitted, hident, hfailed₂, hhistory₂⟩ :=
      htyped₁.quiet.typeOperator op
    -- the operator settles the left side, so the right side starts anew
    obtain ⟨m₃, htyped₃, hfailed₃, hhistory₃, hfeed₃⟩ :=
      ihr (m := m₂) ⟨hfailed₂.trans hfailed₁, .inl hs⟩
    refine ⟨m₃, ?_, hfailed₃, hhistory₃.trans (hhistory₂.trans hhistory₁), fun rest hrest => ?_⟩
    · rw [hcommitted, hident, Nat.add_assoc] at htyped₃
      have hrow : m.committed ++ Literal.row l m.nextIdent ++ [Token.operator op] ++
          Literal.row r (m.nextIdent + l.size) =
            m.committed ++ Literal.row (.node op l r) m.nextIdent := by
        simp only [Literal.row_node, List.append_assoc, List.cons_append, List.nil_append]
      exact hrow ▸ htyped₃
    · have hmem := Operator.mem_operatorTexts_of_read hop
      have hends : ∀ rest, Form.EndsNumber (before ++ (spelling.toList ++ rest)) := fun rest =>
        endsNumber_blank hbefore (endsNumber_symbol (List.mem_append_left _ hmem) rest)
      simp only [List.append_assoc]
      rw [hfeed₁ _ (hends _), feedChars_blank hbefore, feedChars_spelling hop hfailed₁ hoperator,
        feedChars_blank hbehind, hfeed₃ rest hrest]

/-! ## A whole line -/

/-- A line that holds the text of a tree is read to its end. -/
theorem feed_written {t : Expression.Tree Literal} {line : String} (hline : WrittenLine t line)
    (hm : m.AwaitsNumber) :
    ∃ m' : Machine, (feed m line).ending = (m', none) ∧
      m'.Typed (m.committed ++ Literal.row t m.nextIdent) (m.nextIdent + t.size) ∧
        m'.failed = false ∧ m'.history = m.history := by
  obtain ⟨before, cs, behind, htext, hbefore, hbehind, hwritten⟩ := hline
  obtain ⟨m', htyped, hfailed, hhistory, hfeed⟩ := feedChars_written hwritten hm
  refine ⟨m', ?_, htyped, hfailed, hhistory⟩
  have hnothing : Form.EndsNumber [] := nofun
  have hends : Form.EndsNumber behind := List.append_nil behind ▸ endsNumber_blank hbehind hnothing
  have hskip : feedChars m' behind = feedChars m' [] :=
    List.append_nil behind ▸ feedChars_blank hbehind m' []
  rw [feed, htext]
  change (feedChars m (before ++ (cs ++ behind))).ending = _
  rw [feedChars_blank hbefore, hfeed behind hends, hskip, feedChars_nil]

/-- A line that holds the text of a tree is read to its end, and `calculate` gives what computing
the tree gives: the value is shown and kept with the row, or the machine goes into the error
state. -/
theorem calculate_written {t : Expression.Tree Literal} (ht : t.Derives .sum) {line : String}
    (hline : WrittenLine t line) (hm : m.JustFinished) :
    let o := (feed m line).andThen fun m => act m .calculate
    o.fault = none ∧
      match (t.map Literal.written).value with
      | .ok x =>
        o.machine.failed = false ∧ o.machine.buffer = x.resultText ∧ o.machine.committed = [] ∧
          o.machine.history = m.history.push ⟨Literal.row t m.nextIdent, x.resultText⟩
      | .error _ => o.machine.InError ∧ o.machine.history = m.history := by
  obtain ⟨hawaits, hnil⟩ := hm.awaitsNumber
  obtain ⟨m', hfeed, htyped, hfailed, hhistory⟩ := feed_written hline hawaits
  rw [hnil, List.nil_append] at htyped
  intro o
  have hend : o.ending = m'.calculate.ending :=
    (ending_andThen hfeed _).trans (act_ending m' .calculate)
  obtain ⟨hmachine, hfault⟩ := Prod.mk.inj hend
  have hknown := Literal.row_known t m.nextIdent
  refine ⟨hfault.trans (htyped.calculate_fault hfailed hknown), ?_⟩
  -- the row that has been typed has the value of the tree
  have hne := Literal.row_ne_nil t m.nextIdent
  have hvalue := Literal.evaluate_row ht m.nextIdent
  cases hx : (t.map Literal.written).value with
  | error fault =>
    rw [hmachine, ← hhistory]
    exact htyped.calculate_of_error hfailed hne hknown (hvalue.trans hx)
  | ok x =>
    rw [hmachine, ← hhistory]
    exact htyped.calculate_of_ok hfailed hne (hvalue.trans hx)

/-- `2 × (.5 - 1)`: a group behind an operator, and a number that begins with its point. -/
def halfLess : Expression.Tree Literal :=
  let two : Literal := {
    keys := ['2']
    isKey := List.forall_mem_singleton.2 rfl
    points := by decide
    digit := ⟨'2', List.mem_singleton_self _, rfl⟩
    finite := by decide +kernel }
  let half : Literal := {
    keys := ['.', '5']
    isKey := List.forall_mem_cons.2 ⟨rfl, List.forall_mem_singleton.2 rfl⟩
    points := by decide
    digit := ⟨'5', List.mem_cons_of_mem _ (List.mem_singleton_self _), rfl⟩
    finite := by decide +kernel }
  let one : Literal := {
    keys := ['1']
    isKey := List.forall_mem_singleton.2 rfl
    points := by decide
    digit := ⟨'1', List.mem_singleton_self _, rfl⟩
    finite := by decide +kernel }
  .node .multiply (.leaf two) (.group (.node .subtract (.leaf half) (.leaf one)))

/-- Other spellings of the operators, and white space in some places. -/
theorem calculate_written_of_halfLess :
    let o := (feed (new (.ofLimit 0)).clear.machine " 2x (.5 − 1)").andThen fun m =>
      act m .calculate
    o.fault = none ∧ o.machine.buffer = "-1" ∧ o.machine.committed = [] ∧
      o.machine.history.entries = [⟨Literal.row halfLess 0, "-1"⟩] := by
  have hnone : Blank [] := List.forall_mem_nil _
  have hspace : Blank [' '] := List.forall_mem_singleton.2 rfl
  have hderives : halfLess.Derives .sum :=
    .sum (.multiply (.inl rfl) (.product (.leaf _))
      (.group (.add (.inr rfl) (.sum (.product (.leaf _))) (.product (.leaf _)))))
  have hline : WrittenLine halfLess " 2x (.5 − 1)" :=
    ⟨[' '], _, [], rfl, hspace, hnone,
      .node (.leaf _)
        (.group (.node (.leaf _) (.leaf _) (show Operator.read "−" = _ from rfl) hspace hspace)
          hnone hnone)
        (show Operator.read "x" = _ from rfl) hnone hspace⟩
  have hvalue : (halfLess.map Literal.written).value.toOption.map Double.resultText =
      some "-1" := by decide +kernel
  have hwritten := calculate_written hderives hline (.cleared (new (.ofLimit 0)))
  cases hx : (halfLess.map Literal.written).value with
  | error fault =>
    rw [hx] at hvalue
    cases hvalue
  | ok x =>
    rw [hx] at hvalue hwritten
    obtain ⟨hfault, -, hbuffer, hcommitted, hhistory⟩ := hwritten
    rw [Option.some.inj hvalue] at hbuffer hhistory
    exact ⟨hfault, hbuffer, hcommitted, by rw [hhistory]; rfl⟩

end Console

end Keypad
