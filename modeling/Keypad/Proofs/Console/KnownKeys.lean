import Keypad.Proofs.Console.Refusal
import Keypad.Proofs.Console.WrittenExpression

/-!
# Keys that the machine knows

Numbers, operators and grouping marks are lexed by classes of characters, and the machine has its
own tables of keys. Operators and marks are those of the tables, so the machine knows each of them:
what it can still refuse is to commit a buffer that holds no number. The digits of a number may be
of any script, and the machine only has keys for one. A number with a digit of another script is
typed up to that digit, which is then refused.

* `perform_operator_fault`, `perform_parenthesis_fault` — what a known key is refused for.
* `perform_foreign`                                     — a digit without a key.
* `keys_known_iff`                                      — the numbers whose keys are all known.
-/

namespace Keypad

open Keypad.Text

/-- Whether something was refused because it is no key that the machine knows. -/
def Fault.refusesKey : Fault → Bool
  | notADigit _ | unknownOperator _ | notAParenthesis _ => true
  | _ => false

/-- Whether the character is a decimal digit of another script than the keys are in. -/
def Text.isForeignDigit (c : Char) : Bool := isDigit c && !c.isDigit

/-- No machine refuses the action as a key that it does not know. -/
def Action.IsKnown (action : Action) : Prop :=
  ∀ (m : Machine) (fault : Fault), (m.perform action).fault = some fault → fault.refusesKey = false

/-- Reading a text never fails on account of a key. -/
theorem Number.refusesKey_of_read {text : String} {fault : Fault}
    (h : read text = .error fault) : fault.refusesKey = false := by
  unfold read at h
  split at h
  · obtain rfl := Except.error.inj h
    rfl
  · cases h
  · obtain rfl := Except.error.inj h
    rfl

namespace Machine

open Outcome

variable {m : Machine} {fault : Fault}

/-! ## What a known key is refused for -/

/-- If what comes next refuses nothing, a fault was there before. -/
theorem fault_of_andThen {o : Outcome Event} {next : Machine → Outcome Event}
    (hnext : ∀ m, (next m).fault = none) (h : (o.andThen next).fault = some fault) :
    o.fault = some fault := by
  cases ho : o.fault with
  | some fault' => rwa [andThen_of_fault ho, ho] at h
  | none =>
    rw [andThen_of_done ho] at h
    cases (hnext _).symm.trans h

/-- A guarded action is refused only for what it is refused for outside the error state. -/
theorem fault_of_guarded {name : String} {action : Machine → Outcome Event}
    (h : (m.guarded name action).fault = some fault) : (action m.quiet).fault = some fault :=
  guarded_elim (P := fun o => o.fault = some fault → (action m.quiet).fault = some fault)
    (fun _ h => by cases h) (fun _ h => h) h

/-- A commit is refused for what the buffer holds. -/
theorem read_of_commit (h : m.commit.fault = some fault) : Number.read m.buffer = .error fault := by
  cases hread : Number.read m.buffer with
  | ok x =>
    rw [commit_of_read hread] at h
    cases h
  | error fault' =>
    rw [commit_of_error hread] at h
    exact congrArg Except.error (Option.some.inj h)

/-- So is a commit of what was typed. -/
theorem read_of_commitTyped (h : m.commitTyped.fault = some fault) :
    Number.read m.buffer = .error fault := by
  unfold commitTyped at h
  split at h
  · cases h
  · exact read_of_commit h

/-- An operator is refused for what the buffer holds. -/
theorem read_of_typeOperator {op : Operator} (h : (m.typeOperator op).fault = some fault) :
    Number.read m.buffer = .error fault := by
  unfold typeOperator at h
  split at h
  · exact read_of_commit (fault_of_andThen (fun _ => rfl) h)
  · split at h <;> cases h

/-- A grouping mark is refused for what the buffer holds. -/
theorem read_of_typeMark {mark : Mark} (h : (m.typeMark mark).fault = some fault) :
    Number.read m.buffer = .error fault := by
  cases mark with
  | opening =>
    have hfactor := fault_of_andThen (fun _ => rfl) h
    split at hfactor
    · exact read_of_typeOperator hfactor
    · cases hfactor
  | closing => exact read_of_commitTyped (fault_of_andThen (fun _ => rfl) h)

/-- So is the key of an operator whose spelling can be read. -/
theorem perform_operator_fault {spelling : String} {op : Operator}
    (hop : Operator.read spelling = .ok op)
    (h : (m.perform (.operator spelling)).fault = some fault) :
    Number.read m.buffer = .error fault := by
  rw [perform, pressOperator, hop, checking] at h
  exact read_of_typeOperator (m := m.quiet) (fault_of_guarded h)

/-- And the key of a grouping mark. -/
theorem perform_parenthesis_fault {mark : Mark}
    (h : (m.perform (.parenthesis mark.text)).fault = some fault) :
    Number.read m.buffer = .error fault := by
  rw [perform, pressMark, readMark_text, checking] at h
  exact read_of_typeMark (m := m.quiet) (fault_of_guarded h)

/-- A digit of another script has no key. -/
theorem perform_foreign {c : Char} (hc : isForeignDigit c = true) (m : Machine) :
    m.perform (.digit (String.singleton c)) = refused m (.notADigit (String.singleton c)) := by
  have hkey : ¬Buffer.isKey c = true := by
    obtain ⟨hdigit, hforeign⟩ := (Bool.and_eq_true _ _).mp hc
    rw [Buffer.isKey, Bool.or_eq_true, beq_iff_eq]
    rintro (h | rfl)
    · rw [h] at hforeign
      cases hforeign
    · exact absurd hdigit (by decide)
  have hread : readKey (String.singleton c) = .error (.notADigit (String.singleton c)) := by
    rw [readKey, String.toList_singleton]
    exact if_neg hkey
  rw [perform, pressDigit, hread, checking]

end Machine

/-! ## The keys of a lexeme -/

namespace Form

/-- The characters of a number are keys, unless they are digits of another script. -/
theorem isKey_of_mem_numbers {text : List Char} (h : Numbers text) {c : Char} (hc : c ∈ text)
    (hforeign : isForeignDigit c = false) : Buffer.isKey c = true := by
  have hchar : isDigit c = true ∨ c = '.' := by
    rcases h with ⟨-, hdigits⟩ | ⟨whole, fraction, hwhole, hfraction, rfl⟩
    · exact .inl (hdigits c hc)
    · rcases List.mem_append.1 hc with hc | hc
      · exact .inl (hwhole c hc)
      · rcases List.mem_cons.1 hc with rfl | hc
        · exact .inr rfl
        · exact .inl (hfraction c hc)
  rw [Buffer.isKey, Bool.or_eq_true, beq_iff_eq]
  refine hchar.imp_left fun hdigit => ?_
  rw [isForeignDigit, hdigit, Bool.true_and, Bool.not_eq_false'] at hforeign
  exact hforeign

/-- The texts of operators and marks hold no digits. -/
theorem not_foreign_of_mem_texts {text : String} (h : text ∈ operatorTexts ++ markTexts) :
    ∀ c ∈ text.toList, isForeignDigit c = false := by
  have hall : ((operatorTexts ++ markTexts).all fun text =>
      text.toList.all fun c => !isForeignDigit c) = true := by decide +kernel
  intro c hc
  exact (Bool.not_eq_true' _).mp (List.all_eq_true.1 (List.all_eq_true.1 hall text h) c hc)

/-- The spellings that are lexed are those that are read. -/
theorem exists_read_of_mem_operatorTexts {text : String} (h : text ∈ operatorTexts) :
    ∃ op, Operator.read text = .ok op := by
  have hall : ∀ text ∈ operatorTexts, (Operator.read text).isOk = true := by decide +kernel
  have hok := hall text h
  cases hread : Operator.read text with
  | ok op => exact ⟨op, rfl⟩
  | error fault =>
    rw [hread] at hok
    cases hok

end Form

namespace Console

open Machine Machine.Outcome

/-- A digit of another script is refused, and the machine keeps what was typed before it. -/
theorem carryOutLexeme_foreign {keys behind : List Char} {c : Char}
    (hkeys : ∀ key ∈ keys, Buffer.isKey key = true) (hc : isForeignDigit c = true) (m : Machine) :
    (carryOutLexeme m ⟨.number, keys ++ c :: behind⟩).ending =
      (m.run (presses keys), some (.notADigit (String.singleton c))) := by
  have hpresses : (presses (keys ++ c :: behind)).map Command.act =
      (presses keys).map .act ++
        .act (.digit (String.singleton c)) :: (presses behind).map .act := by
    simp [presses]
  have hact : act (m.run (presses keys)) (.digit (String.singleton c)) =
      refused (m.run (presses keys)) (.notADigit (String.singleton c)) := by
    rw [act, perform_foreign hc]
    rfl
  rw [carryOutLexeme, commands_number]
  dsimp only
  rw [hpresses, carryOutAll_presses hkeys, carryOutAll, carryOut, hact]
  rfl

/-- The machine knows the keys of a number exactly if all its digits are of their script. -/
theorem presses_isKnown_iff {text : List Char} (h : Form.Numbers text) :
    (∀ action ∈ presses text, action.IsKnown) ↔ ∀ c ∈ text, isForeignDigit c = false := by
  constructor
  · intro hknown c hc
    by_contra hforeign
    rw [Bool.not_eq_false] at hforeign
    have haction : Action.digit (String.singleton c) ∈ presses text :=
      List.mem_map.2 ⟨c, hc, rfl⟩
    -- one machine is enough to see that it refuses the key
    let m := new (.ofLimit 0)
    have hfault : (m.perform (.digit (String.singleton c))).fault =
        some (.notADigit (String.singleton c)) := by
      rw [perform_foreign hforeign]
      rfl
    cases hknown _ haction m _ hfault
  · intro hforeign action haction m fault hfault
    obtain ⟨c, hc, rfl⟩ := List.mem_map.1 haction
    have hkey := Form.isKey_of_mem_numbers h hc (hforeign c hc)
    cases (perform_key_fault hkey m).symm.trans hfault

/-- A number, an operator or a mark that a line is lexed into stands for actions that type it. The
machine knows all of them as keys, in every state, exactly if no digit is of another script. Where
one is, the number is typed up to the first such digit, and that is refused. -/
theorem keys_known_iff {cs : List Char} {lexeme : Lexeme} (hmem : lexeme ∈ (Lexeme.scan cs).1)
    (hform : lexeme.form = .number ∨ lexeme.form = .operator ∨ lexeme.form = .paren) :
    ∃ actions : List Action, lexeme.commands = .ok (actions.map .act) ∧
      ((∀ action ∈ actions, action.IsKnown) ↔ ∀ c ∈ lexeme.text, isForeignDigit c = false) ∧
      ∀ keys c behind, lexeme.text = keys ++ c :: behind →
        (∀ key ∈ keys, isForeignDigit key = false) → isForeignDigit c = true →
          ∀ m, (carryOutLexeme m lexeme).ending =
            (m.run (presses keys), some (.notADigit (String.singleton c))) := by
  have hspells := (Lexeme.munched_scan cs).spells lexeme hmem
  obtain ⟨form, text⟩ := lexeme
  dsimp only at hform hspells ⊢
  -- a number is typed key by key, and an operator or a mark is one key of the tables
  rcases hform with rfl | rfl | rfl
  · have hnumbers : Form.Numbers text := hspells
    refine ⟨presses text, commands_number text, presses_isKnown_iff hnumbers, ?_⟩
    rintro keys c behind rfl hkeys hc m
    refine carryOutLexeme_foreign (fun key hkey => ?_) hc m
    exact Form.isKey_of_mem_numbers hnumbers (List.mem_append_left _ hkey) (hkeys key hkey)
  · obtain ⟨spelling, hspelling, rfl⟩ := hspells
    have hplain := Form.not_foreign_of_mem_texts (List.mem_append_left _ hspelling)
    obtain ⟨op, hop⟩ := Form.exists_read_of_mem_operatorTexts hspelling
    have hknown : (Action.operator spelling).IsKnown := fun m fault h =>
      Number.refusesKey_of_read (perform_operator_fault hop h)
    refine ⟨[.operator spelling], ?_, ?_, ?_⟩
    · rw [Lexeme.commands, String.ofList_toList]
      rfl
    · exact iff_of_true (List.forall_mem_singleton.2 hknown) hplain
    · intro keys c behind htext _ hc
      cases hc.symm.trans (hplain c (htext ▸ List.mem_append_right _ List.mem_cons_self))
  · obtain ⟨text, hmark, rfl⟩ := hspells
    have hplain := Form.not_foreign_of_mem_texts (List.mem_append_right _ hmark)
    obtain ⟨mark, -, rfl⟩ := List.mem_map.1 hmark
    have hknown : (Action.parenthesis mark.text).IsKnown := fun m fault h =>
      Number.refusesKey_of_read (perform_parenthesis_fault h)
    refine ⟨[.parenthesis mark.text], ?_, ?_, ?_⟩
    · rw [Lexeme.commands, String.ofList_toList]
      rfl
    · exact iff_of_true (List.forall_mem_singleton.2 hknown) hplain
    · intro keys c behind htext _ hc
      cases hc.symm.trans (hplain c (htext ▸ List.mem_append_right _ List.mem_cons_self))

/-- The number `12٣` is typed up to its second digit, and the third is refused. The operator behind
it is one that the machine knows. -/
theorem keys_known_iff_of_arabic :
    let number : Lexeme := ⟨.number, "12٣".toList⟩
    number ∈ (Lexeme.scan "12٣+(5".toList).1 ∧
      (∃ actions : List Action, number.commands = .ok (actions.map .act) ∧
        ¬∀ action ∈ actions, action.IsKnown) ∧
      (∀ m, (carryOutLexeme m number).ending =
        (m.run [.digit "1", .digit "2"], some (.notADigit "٣"))) ∧
      (Fault.notADigit "٣").message = "Not a digit: '٣'" ∧
      ∃ actions : List Action, Lexeme.commands ⟨.operator, ['+']⟩ = .ok (actions.map .act) ∧
        ∀ action ∈ actions, action.IsKnown := by
  intro number
  have hnumber : number ∈ (Lexeme.scan "12٣+(5".toList).1 := by decide +kernel
  have hplus : (⟨.operator, ['+']⟩ : Lexeme) ∈ (Lexeme.scan "12٣+(5".toList).1 := by
    decide +kernel
  obtain ⟨actions, hcommands, hknown, hforeign⟩ := keys_known_iff hnumber (.inl rfl)
  obtain ⟨actions', hcommands', hknown', -⟩ := keys_known_iff hplus (.inr (.inl rfl))
  refine ⟨hnumber, ⟨actions, hcommands, ?_⟩, ?_, by decide +kernel, actions', hcommands', ?_⟩
  · rw [hknown]
    exact fun hplain => absurd (hplain '٣' (by decide)) (by decide)
  · have hplain : isForeignDigit '1' = false ∧ isForeignDigit '2' = false := by decide
    refine hforeign ['1', '2'] '٣' [] rfl ?_ (by decide)
    exact List.forall_mem_cons.2 ⟨hplain.1, List.forall_mem_singleton.2 hplain.2⟩
  · exact hknown'.2 (List.forall_mem_singleton.2 (by decide))

end Console

end Keypad
