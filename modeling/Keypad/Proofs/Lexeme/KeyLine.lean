import Keypad.Lexeme.KeyText
import Keypad.Proofs.Lexeme.Feedables
import Keypad.Proofs.Number.ReadBack

/-!
# Commands written as key text

Commands that are written as key text, with a space between neighbours, are read back one by one. A
name may hold anything but an apostrophe and a unit anything but a closing bracket: where they stand
is told by their first and last character, not by what is in them. The one thing that is not read
back is an index with too many digits.

* `feedables_intercalate` — lexemes written with spaces between them are cut off again.
* `IsTypable`             — the commands that keys can be pressed for.
* `IsTypable.exists_writes` — the lexeme that such a command is written as.
* `feedables_keyLine`     — a list of commands is read back.
-/

namespace Keypad

open Keypad.Text Keypad.Form

namespace Lexeme

/-! ## Lexemes with spaces between them -/

/-- Lexemes that are written with a space between neighbours are cut off one by one. -/
theorem feedables_intercalate {lexemes : List Lexeme}
    (h : ∀ lexeme ∈ lexemes, lexeme.form.Spells lexeme.text ∧ lexeme.form ≠ .space) :
    feedables ([' '].intercalate (lexemes.map text)) = (lexemes, []) := by
  induction lexemes with
  | nil => exact feedables_nil
  | cons lexeme lexemes ih =>
    obtain ⟨⟨hspells, hform⟩, hlexemes⟩ := List.forall_mem_cons.1 h
    have hrest := ih hlexemes
    cases lexemes with
    | nil =>
      rw [List.map_singleton, List.intercalate_singleton, feedables_of_spells hspells hform]
    | cons lexeme' lexemes =>
      -- the space separates, and asks for nothing itself
      have hblank : Only isBlank [' '] := by decide
      have hspace := separates_append hblank (List.cons_ne_nil _ _)
      have hfront := feedables_of_spells hspells hform
      rw [List.map_cons, List.map_cons, List.intercalate_cons_cons, List.append_assoc,
        feedables_append _ (hspace _), hfront, List.nil_append, feedables_blank_append hblank,
        ← List.map_cons, hrest]
      rfl

/-! ## The parts of names and units -/

theorem inner_enclosed (opening closing : Char) (inside : List Char) :
    inner (opening :: (inside ++ [closing])) = inside := by
  rw [inner, List.tail_cons, List.dropLast_concat]

/-- A name without a colour is quoted to its end. -/
theorem labelParts_plain (name : List Char) :
    labelParts ('\x27' :: (name ++ ['\x27'])) = (name, .keep) := by
  have hlast : ('\x27' :: (name ++ ['\x27'])).getLast? = some '\x27' := by
    rw [← List.cons_append, List.getLast?_concat]
  rw [labelParts, if_pos hlast, inner_enclosed]

/-- The colour is what stands behind the last colon, since none of its letters is one. -/
theorem labelParts_colored (name : List Char) {word : List Char}
    (hword : Only isColorLetter word) :
    labelParts ('\x27' :: (name ++ '\x27' :: ':' :: word)) =
      (name, .set (String.ofList word)) := by
  have htext : '\x27' :: (name ++ '\x27' :: ':' :: word) =
      '\x27' :: (name ++ ['\x27']) ++ ':' :: word := by simp
  -- the text ends in a letter of the colour, so it is not taken for a name without one
  have hlast : ('\x27' :: (name ++ ['\x27']) ++ ':' :: word).getLast? ≠ some '\x27' := by
    intro hlast
    rw [List.getLast?_append_of_ne_nil _ (List.cons_ne_nil _ _)] at hlast
    rcases List.mem_cons.1 (List.mem_of_getLast? hlast) with hc | hc
    · exact absurd hc (by decide)
    · exact absurd (hword _ hc) (by decide)
  -- read from its end, the word goes on up to the first colon
  have hcolor : colorWord ('\x27' :: (name ++ ['\x27']) ++ ':' :: word) = word := by
    have hreverse : ∀ c ∈ word.reverse, decide (c ≠ ':') = true := by
      intro c hc
      refine decide_eq_true ?_
      rintro rfl
      exact absurd (hword ':' (List.mem_reverse.1 hc)) (by decide)
    rw [colorWord, List.reverse_append, List.reverse_cons, List.append_assoc,
      List.singleton_append, List.takeWhile_append_of_pos hreverse, List.takeWhile_cons,
      if_neg (by decide), List.append_nil, List.reverse_reverse]
  have hlength : ('\x27' :: (name ++ ['\x27'])).length =
      ('\x27' :: (name ++ ['\x27']) ++ ':' :: word).length - word.length - 1 := by
    simp only [List.length_append, List.length_cons]
    omega
  rw [htext, labelParts, if_neg hlast, hcolor]
  dsimp only
  rw [List.take_left' hlength, inner_enclosed]

end Lexeme

namespace Command

/-! ## The commands that keys can be pressed for -/

/-- Whether keys can be pressed for the command. The texts of names, units and colours are those
that end where they should. -/
def IsTypable : Command → Prop
  | .act (.digit key) => ∃ c, Buffer.isKey c = true ∧ key = String.singleton c
  | .act (.parenthesis mark) => ∃ m : Mark, mark = m.text
  | .act (.operator spelling) => ∃ op, Operator.read spelling = .ok op
  | .act .calculate | .act .clear | .act .delete | .act .toggleSign | .act .percentage => True
  | .showHistory | .showVariables | .showHelp => True
  | .act (.label target text color) =>
    (∃ t : Target, target = t.name) ∧ (∃ name, text = some name ∧ '\x27' ∉ name.toList) ∧
      (color = .keep ∨
        ∃ word, color = .set word ∧ word ≠ "" ∧ Only isColorLetter word.toList)
  | .act (.unit target text) =>
    (∃ t : Target, target = t.name) ∧ ∀ unit ∈ text, unit ≠ "" ∧ ']' ∉ unit.toList
  | .store name | .act (.retrieve name) | .act (.forget name) =>
    name ≠ "" ∧ Only isWord name.toList
  | .act (.load index) => 0 ≤ index
  | .act .point | .act (.save _ _ _ _) | .act (.retrieveSaved _ _) => False

/-- What the keys of a command are read as: the command itself, unless it loads an index with too
many digits. -/
def reading (command : Command) : Except Fault (List Command) :=
  match command with
  | .act (.load index) =>
    let digits := Decimal.digits index.toNat
    if digits.length ≤ Lexeme.indexPlaces then .ok [command]
    else .error (.unreadableIndex (String.ofList digits))
  | _ => .ok [command]

/-- The keys of the command are those of the lexeme, and read as the command. -/
structure Writes (command : Command) (lexeme : Lexeme) : Prop where
  keys : command.keyText? = some lexeme.text
  spells : lexeme.form.Spells lexeme.text
  feedable : lexeme.form ≠ .space
  commands : lexeme.commands = command.reading

/-- A caret or none is put before a text that does not begin with one, and is taken off again. -/
theorem exists_caret (target : Target) {language : List Char → Prop} {c : Char} {cs : List Char}
    (h : language (c :: cs)) (hcaret : c ≠ '^') :
    ∃ caret, caretOf? target.name = some caret ∧ Aimed language (caret ++ c :: cs) ∧
      Lexeme.aim (caret ++ c :: cs) = (target, c :: cs) := by
  cases target with
  | current =>
    refine ⟨[], by decide, .inl h, ?_⟩
    rw [List.nil_append]
    unfold Lexeme.aim
    split
    · next heq => exact absurd (List.cons.inj heq).1 hcaret
    · rfl
  | previous => exact ⟨['^'], by decide, .inr ⟨c :: cs, h, rfl⟩, rfl⟩

/-! ## Kind by kind -/

/-- A command of one key. -/
theorem writes_key {command : Command} {key : Char} (hkeys : command.keyText? = some [key])
    (hmem : key ∈ commandKeys) (hof : ofKey? key = some command)
    (hreading : command.reading = .ok [command]) : command.Writes ⟨.command, [key]⟩ where
  keys := hkeys
  spells := ⟨key, hmem, rfl⟩
  feedable := nofun
  commands := by
    rw [hreading, Lexeme.commands, List.filterMap_cons_some hof]
    rfl

/-- A digit or the point is a number of one character. -/
theorem writes_digit {c : Char} (h : Buffer.isKey c = true) :
    (Command.act (.digit (String.singleton c))).Writes ⟨.number, [c]⟩ where
  keys := by rw [keyText?, actionKeys?, String.toList_singleton]
  spells := by
    rw [Buffer.isKey, Bool.or_eq_true, beq_iff_eq] at h
    rcases h with h | rfl
    · exact .inl ⟨List.cons_ne_nil _ _, List.forall_mem_singleton.2 (isDigit_of_char_isDigit h)⟩
    · exact .inr ⟨[], [], List.forall_mem_nil _, List.forall_mem_nil _, rfl⟩
  feedable := nofun
  commands := rfl

theorem led_name {lead : Char} {name : String} (hne : name ≠ "") (hname : Only isWord name.toList) :
    Led lead isWord (lead :: name.toList) :=
  ⟨_, mt String.toList_eq_nil_iff.1 hne, hname, rfl⟩

/-- A name is quoted, its colour put behind a colon and its target before it. -/
theorem exists_writes_label (target : Target) {name : String} (hname : '\x27' ∉ name.toList)
    {color : Edit String}
    (hcolor : color = .keep ∨ ∃ word, color = .set word ∧ word ≠ "" ∧
      Only isColorLetter word.toList) :
    ∃ lexeme, (Command.act (.label target.name (some name) color)).Writes lexeme := by
  have hquoted : Enclosed '\x27' '\x27' ('\x27' :: (name.toList ++ ['\x27'])) :=
    ⟨_, hname, rfl⟩
  -- the name stands alone, or with a colour behind it
  rcases hcolor with rfl | ⟨word, rfl, hne, hword⟩
  · have hlabels : Labels ('\x27' :: (name.toList ++ ['\x27'])) :=
      ⟨_, [], hquoted, .inl rfl, (List.append_nil _).symm⟩
    obtain ⟨caret, hcaret, haimed, haim⟩ := exists_caret target hlabels (by decide)
    refine ⟨⟨.label, _⟩, ?_, haimed, nofun, ?_⟩
    · simp [keyText?, actionKeys?, hcaret, colorPart?]
    · simp [Lexeme.commands, haim, Lexeme.labelParts_plain, reading]
  · have hled : Led ':' isColorLetter (':' :: word.toList) :=
      ⟨word.toList, mt String.toList_eq_nil_iff.1 hne, hword, rfl⟩
    have hlabels : Labels ('\x27' :: (name.toList ++ '\x27' :: ':' :: word.toList)) :=
      ⟨_, _, hquoted, .inr hled, by simp⟩
    obtain ⟨caret, hcaret, haimed, haim⟩ := exists_caret target hlabels (by decide)
    refine ⟨⟨.label, _⟩, ?_, haimed, nofun, ?_⟩
    · simp [keyText?, actionKeys?, hcaret, colorPart?]
    · simp [Lexeme.commands, haim, Lexeme.labelParts_colored _ hword, reading]

/-- A unit is bracketed, and no unit is written as an empty one. -/
theorem exists_writes_unit (target : Target) {text : Option String}
    (htext : ∀ unit ∈ text, unit ≠ "" ∧ ']' ∉ unit.toList) :
    ∃ lexeme, (Command.act (.unit target.name text)).Writes lexeme := by
  have hmem : ']' ∉ (text.getD "").toList := by
    cases text with
    | none => exact List.not_mem_nil
    | some unit => exact (htext unit rfl).2
  have hunit : Naming.unlessEmpty (some (text.getD "")) = text := by
    cases text with
    | none => rfl
    | some unit => exact Option.filter_some_pos (decide_eq_true (htext unit rfl).1)
  have henclosed : Enclosed '[' ']' ('[' :: ((text.getD "").toList ++ [']'])) := ⟨_, hmem, rfl⟩
  obtain ⟨caret, hcaret, haimed, haim⟩ := exists_caret target henclosed (by decide)
  refine ⟨⟨.unit, _⟩, ?_, haimed, nofun, ?_⟩
  · simp [keyText?, actionKeys?, hcaret]
  · simp [Lexeme.commands, haim, Lexeme.inner_enclosed, hunit, reading]

/-- The digits of a keypad all have a value. -/
theorem mapM_digitValue? {cs : List Char} (h : ∀ c ∈ cs, c.isDigit = true) :
    cs.mapM digitValue? = some (Numeral.keyValues cs) := by
  induction cs with
  | nil => rfl
  | cons c cs ih =>
    obtain ⟨hc, hcs⟩ := List.forall_mem_cons.1 h
    rw [List.mapM_cons, digitValue?_of_isDigit hc, ih hcs]
    rfl

/-- An index is written in decimal, however long it is. -/
theorem writes_load (index : Nat) :
    (Command.act (.load index)).Writes ⟨.load, '@' :: Decimal.digits index⟩ where
  keys := by
    rw [keyText?, actionKeys?, if_neg (by omega), Int.toNat_natCast]
  spells :=
    ⟨_, Decimal.digits_ne_nil index,
      fun _ hc => isDigit_of_char_isDigit (Decimal.isDigit_of_mem_digits hc), rfl⟩
  feedable := nofun
  commands := by
    have hmap := mapM_digitValue? fun c => Decimal.isDigit_of_mem_digits (n := index) (c := c)
    simp only [Lexeme.commands, List.tail_cons, Lexeme.readIndex, hmap, reading,
      Int.toNat_natCast, Decimal.length_keyValues, Decimal.ofDigits_digits]
    split <;> rfl

/-- Every command that keys can be pressed for is written as one lexeme. -/
theorem IsTypable.exists_writes {command : Command} (h : command.IsTypable) :
    ∃ lexeme, command.Writes lexeme := by
  cases command with
  -- names of variables hold word characters only, so they end at the space behind them
  | store name =>
    obtain ⟨hne, hname⟩ := h
    exact ⟨⟨.store, _⟩, rfl, led_name hne hname, nofun, by simp [Lexeme.commands, reading]⟩
  -- what the console shows is asked for by one key each
  | showHistory => exact ⟨_, writes_key rfl (by decide) rfl rfl⟩
  | showVariables => exact ⟨_, writes_key rfl (by decide) rfl rfl⟩
  | showHelp => exact ⟨_, writes_key rfl (by decide) rfl rfl⟩
  | act action =>
    cases action with
    | digit key =>
      obtain ⟨c, hc, rfl⟩ := h
      exact ⟨_, writes_digit hc⟩
    | parenthesis mark =>
      obtain ⟨mark, rfl⟩ := h
      have hmem : mark.text ∈ markTexts := by cases mark <;> decide
      exact ⟨⟨.paren, mark.text.toList⟩, rfl, ⟨_, hmem, rfl⟩, nofun,
        by simp [Lexeme.commands, reading]⟩
    | operator spelling =>
      obtain ⟨op, hop⟩ := h
      exact ⟨⟨.operator, spelling.toList⟩, rfl, ⟨_, Operator.mem_operatorTexts_of_read hop, rfl⟩,
        nofun, by simp [Lexeme.commands, reading]⟩
    | label target text color =>
      obtain ⟨⟨target, rfl⟩, ⟨name, rfl, hname⟩, hcolor⟩ := h
      exact exists_writes_label target hname hcolor
    | unit target text =>
      obtain ⟨⟨target, rfl⟩, htext⟩ := h
      exact exists_writes_unit target htext
    | retrieve name =>
      obtain ⟨hne, hname⟩ := h
      exact ⟨⟨.retrieve, _⟩, rfl, led_name hne hname, nofun, by simp [Lexeme.commands, reading]⟩
    | forget name =>
      obtain ⟨hne, hname⟩ := h
      exact ⟨⟨.forget, _⟩, rfl, led_name hne hname, nofun, by simp [Lexeme.commands, reading]⟩
    | load index =>
      obtain ⟨index, rfl⟩ := Int.eq_ofNat_of_zero_le h
      exact ⟨_, writes_load index⟩
    -- the remaining actions have one key each
    | calculate => exact ⟨_, writes_key rfl (by decide) rfl rfl⟩
    | clear => exact ⟨_, writes_key rfl (by decide) rfl rfl⟩
    | delete => exact ⟨_, writes_key rfl (by decide) rfl rfl⟩
    | toggleSign => exact ⟨_, writes_key rfl (by decide) rfl rfl⟩
    | percentage => exact ⟨_, writes_key rfl (by decide) rfl rfl⟩
    -- these have no keys of their own
    | point | save _ _ _ _ | retrieveSaved _ _ => exact absurd h id

/-! ## Lists of commands -/

/-- A list of such commands is written as a list of lexemes, one for each. -/
theorem exists_lexemes {commands : List Command} (h : ∀ command ∈ commands, command.IsTypable) :
    ∃ lexemes : List Lexeme, commands.mapM keyText? = some (lexemes.map Lexeme.text) ∧
      (∀ lexeme ∈ lexemes, lexeme.form.Spells lexeme.text ∧ lexeme.form ≠ .space) ∧
      lexemes.map Lexeme.commands = commands.map reading := by
  induction commands with
  | nil => exact ⟨[], rfl, nofun, rfl⟩
  | cons command commands ih =>
    obtain ⟨hcommand, hcommands⟩ := List.forall_mem_cons.1 h
    obtain ⟨lexeme, hwrites⟩ := hcommand.exists_writes
    obtain ⟨lexemes, hkeys, hlexemes, hreadings⟩ := ih hcommands
    refine ⟨lexeme :: lexemes, ?_, ?_, ?_⟩
    · rw [List.mapM_cons, hwrites.keys, hkeys]
      rfl
    · exact List.forall_mem_cons.2 ⟨⟨hwrites.spells, hwrites.feedable⟩, hlexemes⟩
    · rw [List.map_cons, List.map_cons, hwrites.commands, hreadings]

/-- A command is read as itself, unless it loads an index with too many digits. -/
theorem reading_eq_ok_iff {command : Command} : command.reading = .ok [command] ↔
    ∀ index, command = .act (.load index) →
      (Decimal.digits index.toNat).length ≤ Lexeme.indexPlaces := by
  unfold reading
  split
  · next index =>
    constructor
    · intro h index' heq
      cases heq
      by_contra hlength
      cases (if_neg hlength).symm.trans h
    · exact fun h => if_pos (h index rfl)
  · next hload => exact iff_of_true rfl fun index heq => absurd heq (hload index)

/-- Commands that keys can be pressed for are written as key text with a space between neighbours.
The text is lexed to its end, and its lexemes stand for the commands one by one, in order. Only an
index with too many digits is not read back, so the commands come back exactly if they load none. -/
theorem feedables_keyLine {commands : List Command}
    (h : ∀ command ∈ commands, command.IsTypable) :
    ∃ line, keyLine? commands = some line ∧ (Lexeme.scan line).2 = [] ∧
      ((Lexeme.scan line).1.filter Lexeme.isFeedable).map Lexeme.commands =
        commands.map reading ∧
      (((Lexeme.scan line).1.filter Lexeme.isFeedable).map Lexeme.commands =
          commands.map (fun command => .ok [command]) ↔
        ∀ index, .act (.load index) ∈ commands →
          (Decimal.digits index.toNat).length ≤ Lexeme.indexPlaces) := by
  obtain ⟨lexemes, hkeys, hlexemes, hreadings⟩ := exists_lexemes h
  obtain ⟨hfeedable, hrest⟩ := Prod.mk.inj (Lexeme.feedables_intercalate hlexemes)
  refine ⟨[' '].intercalate (lexemes.map Lexeme.text), ?_, hrest, ?_, ?_⟩
  · rw [keyLine?, hkeys]
    rfl
  · rw [hfeedable, hreadings]
  · rw [hfeedable, hreadings, List.map_inj_left]
    constructor
    · exact fun hall index hmem => reading_eq_ok_iff.1 (hall _ hmem) index rfl
    · exact fun hall command hmem => reading_eq_ok_iff.2 fun index heq => hall index (heq ▸ hmem)

/-- Commands of every kind. Colons, brackets, quotes and keys of other commands stand in the texts
of names and units. -/
def typedCommands : List Command :=
  [.act (.digit "7"), .act (.operator "x"), .act (.parenthesis "("), .act (.digit "."),
    .act .toggleSign, .act (.label "previous" (some "a: [b] >c") (.set "red")),
    .act (.label "current" (some "") .keep), .act (.unit "current" none),
    .act (.unit "previous" (some "'kg':red =")), .store "été_2", .act (.retrieve "x"),
    .act (.forget "c"), .act (.load 17), .showHelp]

/-- The line of those commands is cut into their lexemes and nothing else. -/
theorem feedables_keyLine_of_typed :
    ∃ line, keyLine? typedCommands = some line ∧
      line = "7 x ( . _ ^'a: [b] >c':red '' [] ^['kg':red =] >été_2 $x !c @17 ?".toList ∧
      (Lexeme.scan line).2 = [] ∧
      ((Lexeme.scan line).1.filter Lexeme.isFeedable).map Lexeme.commands =
        typedCommands.map fun command => .ok [command] := by
  have hword : ∀ name ∈ ["été_2", "x", "c"], name ≠ "" ∧ Only isWord name.toList := by
    decide +kernel
  have htypable : ∀ command ∈ typedCommands, command.IsTypable := by
    simp only [typedCommands, List.forall_mem_cons]
    refine ⟨⟨'7', rfl, rfl⟩, ⟨.multiply, rfl⟩, ⟨.opening, rfl⟩, ⟨'.', rfl, rfl⟩, trivial,
      ⟨⟨.previous, rfl⟩, ⟨_, rfl, by decide⟩, .inr ⟨_, rfl, by decide, by decide⟩⟩,
      ⟨⟨.current, rfl⟩, ⟨_, rfl, by decide⟩, .inl rfl⟩, ⟨⟨.current, rfl⟩, nofun⟩,
      ⟨⟨.previous, rfl⟩, ?_⟩, hword _ (by decide), hword _ (by decide), hword _ (by decide),
      Int.natCast_nonneg 17, trivial, nofun⟩
    rintro unit ⟨⟩
    decide
  have hloads : ∀ index, .act (.load index) ∈ typedCommands →
      (Decimal.digits index.toNat).length ≤ Lexeme.indexPlaces := by
    intro index hmem
    have hindex : index = 17 := by simpa [typedCommands] using hmem
    rw [hindex]
    decide
  obtain ⟨line, hline, hrest, -, hback⟩ := feedables_keyLine htypable
  have hkeys : keyLine? typedCommands =
      some "7 x ( . _ ^'a: [b] >c':red '' [] ^['kg':red =] >été_2 $x !c @17 ?".toList := by
    decide +kernel
  exact ⟨line, hline, Option.some.inj (hline.symm.trans hkeys), hrest, hback.2 hloads⟩

end Command

end Keypad
