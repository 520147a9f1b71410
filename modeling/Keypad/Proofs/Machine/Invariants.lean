import Keypad.Proofs.Expression.Conservation
import Keypad.Proofs.Machine.Moves
import Keypad.Proofs.Number.ReadBack
import Keypad.Proofs.Variables.LastSave

/-!
# What holds of every machine

Four properties that every move keeps, and so every run from a new machine:

* `Recallable`   — whatever can come back into the buffer, the variables and the past results, is
  readable.
* `Occupied`     — besides that, the buffer is not empty.
* `WellNumbered` — the idents of a row are those of ascending numbers below the next one, so an
  ident is never given twice.
* `KnownRows`    — every operator of a row is one of the four, so evaluating it fails for nothing
  but what the user is told of.
-/

namespace Keypad

namespace Buffer

/-- A number begins with its first key. -/
theorem first_ne_empty (key : Char) : first key ≠ "" := by
  unfold first
  split
  · decide
  · intro h
    have := congrArg String.toList h
    simp at this

/-- A text with a character behind it is not empty. -/
theorem push_ne_empty (text : String) (c : Char) : text.push c ≠ "" := by
  intro h
  have := congrArg String.toList h
  simp at this

/-- Typing never empties the text. -/
theorem type_ne_empty {text : String} (h : text ≠ "") (key : Char) : type text key ≠ "" := by
  unfold type typePoint typeDigit
  split
  · split
    · exact h
    · exact push_ne_empty _ _
  · split
    · split
      · exact h
      · exact push_ne_empty _ _
    · exact push_ne_empty _ _

/-- Nothing cannot be read. -/
theorem ne_empty_of_read {text : String} {x : Double} (h : Number.read text = .ok x) :
    text ≠ "" := by
  rintro rfl
  cases h

/-- When all is taken back there is a zero. -/
theorem erase_ne_empty (text : String) : erase text ≠ "" := by
  unfold erase
  split
  · next h =>
    obtain ⟨x, hx⟩ := Number.isReadable_iff.1 h
    exact ne_empty_of_read hx
  · decide

/-- A sign alone is no number, so taking it away leaves something. -/
theorem toggleSign_ne_empty {text : String} {x : Double} (h : Number.read text = .ok x) :
    toggleSign text ≠ "" := by
  intro hempty
  have hlist := congrArg String.toList hempty
  unfold toggleSign at hlist
  split at hlist
  · next rest htext =>
    rw [String.toList_ofList] at hlist
    rw [show rest = [] from hlist] at htext
    rw [← String.ofList_toList (s := text), htext] at h
    cases h
  · rw [String.toList_ofList] at hlist
    exact List.cons_ne_nil _ _ hlist

end Buffer

namespace Machine

variable {p : String → Prop} {m m' : Machine}

/-- The text that a key leaves in the buffer. -/
def keyedText (m : Machine) (key : Char) : String :=
  if m.settled then Buffer.first key else Buffer.type m.buffer key

/-- A key changes nothing but the number being typed. -/
theorem exists_typeKey_eq (m : Machine) (key : Char) :
    ∃ naming intermediate, m.typeKey key =
      { m with
        buffer := m.keyedText key, naming := naming, settled := false,
        intermediate := intermediate } := by
  unfold typeKey keyedText retype
  cases hs : m.settled with
  | true => exact ⟨_, _, rfl⟩
  | false =>
    simp only [Bool.false_eq_true, if_false]
    split
    · next hkey =>
      refine ⟨m.naming, m.intermediate, ?_⟩
      rw [Buffer.ignores_iff.1 hkey, ← hs]
    · exact ⟨_, m.intermediate, by rw [← hs]⟩

theorem typeKey_failed (m : Machine) (key : Char) : (m.typeKey key).failed = m.failed := by
  obtain ⟨naming, intermediate, heq⟩ := m.exists_typeKey_eq key
  rw [heq]

/-- A key leaves something in the buffer. -/
theorem keyedText_ne_empty (h : m.buffer ≠ "") (key : Char) : m.keyedText key ≠ "" := by
  unfold keyedText
  split
  · exact Buffer.first_ne_empty key
  · exact Buffer.type_ne_empty h key

/-- A move ends in the error state by going there, or by changing there what concerns the notice or
the variables. -/
theorem Move.of_failed (h : Move p m m') (hm' : m'.failed = true) :
    m' = m.enterError ∨
      m.failed = true ∧ ∃ notice store, m' = { m with notice := notice, store := store } := by
  cases h with
  | notice _ | save _ | forget _ => exact .inr ⟨hm', _, _, rfl⟩
  | fail _ => exact .inl rfl
  | clear | load _ => cases hm'
  | type hm _ => cases hm.symm.trans ((m.typeKey_failed _).symm.trans hm')
  | waste hm | push hm | operator hm | replace hm | opening hm | closing hm | conclude hm
  | erase hm | sign hm | percent hm | name hm | edit hm | retrieve hm =>
    cases hm.symm.trans hm'

/-! ## Variables and results can be read -/

/-- Every variable and every past result is the text of a number. -/
structure Recallable (m : Machine) : Prop where
  store : ∀ v ∈ m.store.saved, Number.isReadable v.value = true
  results : ∀ e ∈ m.history.entries, Number.isReadable e.result = true

/-- At the start there is nothing to come back. -/
theorem recallable_new (limit : Nat) : (new (.ofLimit limit)).Recallable := by
  constructor
  · intro v hv
    cases hv
  · intro e he
    cases he

theorem isReadable_resultText (x : Double) : Number.isReadable x.resultText = true :=
  Number.isReadable_iff.2 x.exists_read_resultText

/-- A variable that is saved holds the number that was to be saved. -/
theorem forall_saved_of_save (q : String → Prop) {vs vs' : Variables} {label value : String}
    {unit color : Option String} (h : vs.save label value unit color = .ok vs')
    (hvs : ∀ v ∈ vs.saved, q v.value) (hvalue : Number.isReadable value = true → q value) :
    ∀ v ∈ vs'.saved, q v.value := by
  obtain ⟨-, hread, c, -, rfl⟩ := Variables.saveAt_eq_ok_iff.1 h
  intro v hv
  simp only [Variables.insert, List.mem_mergeSort, List.mem_append, List.mem_singleton] at hv
  rcases hv with hv | rfl
  · exact hvs v (Variables.mem_delete.1 hv).1
  · exact hvalue hread

/-- What is saved and what is concluded is the text of a number, and nothing else is kept. -/
theorem Move.recallable (h : Move p m m') (hm : m.Recallable) : m'.Recallable := by
  cases h with
  | type _ _ =>
    obtain ⟨naming, intermediate, heq⟩ := m.exists_typeKey_eq ‹Char›
    rw [heq]
    exact ⟨hm.store, hm.results⟩
  | conclude _ _ =>
    refine ⟨hm.store, fun e he => ?_⟩
    rcases List.mem_cons.1 (List.mem_of_mem_take he) with rfl | he
    · exact isReadable_resultText _
    · exact hm.results e he
  | save hvs =>
    exact ⟨forall_saved_of_save (Number.isReadable · = true) hvs hm.store id, hm.results⟩
  | forget label => exact ⟨fun v hv => hm.store v (List.mem_filter.1 hv).1, hm.results⟩
  | _ => exact ⟨hm.store, hm.results⟩

/-- So a number that is handed back as it was kept can be read. -/
theorem Keeps.isReadable {value : String} (h : m.Keeps value) (hm : m.Recallable) :
    Number.isReadable value = true := by
  obtain ⟨v, hv, rfl⟩ := h
  exact hm.store v hv

/-! ## The buffer is never empty -/

/-- The buffer is not empty, and nothing empty can come back into it. -/
structure Occupied (m : Machine) : Prop where
  recallable : m.Recallable
  buffer : m.buffer ≠ ""

theorem occupied_new (limit : Nat) : (new (.ofLimit limit)).Occupied :=
  ⟨recallable_new limit, (by decide : Buffer.start ≠ "")⟩

theorem ne_empty_of_isReadable {text : String} (h : Number.isReadable text = true) : text ≠ "" := by
  obtain ⟨x, hx⟩ := Number.isReadable_iff.1 h
  exact Buffer.ne_empty_of_read hx

/-- No move empties the buffer, as long as a host hands back nothing empty. -/
theorem Move.occupied (hp : ∀ value, p value → value ≠ "") (h : Move p m m') (hm : m.Occupied) :
    m'.Occupied := by
  refine ⟨h.recallable hm.recallable, ?_⟩
  cases h with
  | type _ _ =>
    obtain ⟨naming, intermediate, heq⟩ := m.exists_typeKey_eq ‹Char›
    rw [heq]
    exact keyedText_ne_empty hm.buffer _
  | conclude _ _ => exact ne_empty_of_isReadable (isReadable_resultText _)
  | fail _ => exact (by decide : errorMarker ≠ "")
  | clear => exact (by decide : Buffer.start ≠ "")
  | erase _ _ =>
    -- without this step `exact` would unfold the edit, and with it the reading of numbers
    dsimp only
    exact Buffer.erase_ne_empty m.buffer
  | sign _ hread _ =>
    dsimp only
    exact Buffer.toggleSign_ne_empty hread
  | percent _ x =>
    dsimp only
    exact Buffer.ne_empty_of_read x.read_canonicalText
  | load hentry => exact ne_empty_of_isReadable (hm.recallable.results _ hentry)
  | retrieve _ hvalue _ =>
    rcases hvalue with hvalue | hvalue
    · exact hp _ hvalue
    · exact ne_empty_of_isReadable (hvalue.isReadable hm.recallable)
  | _ => exact hm.buffer

/-! ## No ident is given twice -/

/-- Different numbers give different idents. -/
theorem operandIdent_inj {a b : Nat} : operandIdent a = operandIdent b ↔ a = b := by
  refine ⟨fun h => ?_, fun h => h ▸ rfl⟩
  have hdigits : Nat.toDigits 10 a = Nat.toDigits 10 b := by
    -- the two texts begin alike, so their digits are the same
    have hlist := congrArg String.toList h
    simp only [operandIdent, String.toList_append, toString, Nat.repr,
      String.toList_ofList] at hlist
    exact List.append_cancel_left hlist
  rw [← Nat.ofDigitChars_ten_toDigits (n := a), hdigits, Nat.ofDigitChars_ten_toDigits]

/-- None of them is the ident of the number being typed. -/
theorem operandIdent_ne_currentIdent (k : Nat) : operandIdent k ≠ currentIdent := by
  intro h
  have hlist := congrArg (fun text => text.toList.head?) h
  simp [operandIdent, currentIdent] at hlist

/-- The idents in the row are those of ascending numbers below this one. -/
def Numbered (n : Nat) (ts : Expression) : Prop :=
  ∃ ks : List Nat, ks.Pairwise (· < ·) ∧ (∀ k ∈ ks, k < n) ∧
    ts.filterMap Token.ident = ks.map operandIdent

theorem numbered_nil (n : Nat) : Numbered n [] := ⟨[], .nil, by simp, rfl⟩

/-- Whether a row is numbered is told by its idents. -/
theorem Numbered.congr {n : Nat} {ts ts' : Expression} (h : Numbered n ts)
    (hts : ts'.filterMap Token.ident = ts.filterMap Token.ident) : Numbered n ts' := by
  unfold Numbered at h ⊢
  rwa [hts]

/-- A numbered row stays so when idents are used up. -/
theorem Numbered.mono {n n' : Nat} {ts : Expression} (h : Numbered n ts) (hn : n ≤ n') :
    Numbered n' ts := by
  obtain ⟨ks, hks, hlt, hts⟩ := h
  exact ⟨ks, hks, fun k hk => Nat.lt_of_lt_of_le (hlt k hk) hn, hts⟩

/-- The next ident goes behind a numbered row. -/
theorem Numbered.snoc {n : Nat} {ts : Expression} {t : Token} (h : Numbered n ts)
    (ht : t.ident = some (operandIdent n)) : Numbered (n + 1) (ts ++ [t]) := by
  obtain ⟨ks, hks, hlt, hts⟩ := h
  refine ⟨ks ++ [n], ?_, ?_, ?_⟩
  · refine List.pairwise_append.2 ⟨hks, List.pairwise_singleton _ _, fun k hk n' hn' => ?_⟩
    rw [List.mem_singleton.1 hn']
    exact hlt k hk
  · intro k hk
    rcases List.mem_append.1 hk with hk | hk
    · exact Nat.lt_succ_of_lt (hlt k hk)
    · exact List.mem_singleton.1 hk ▸ Nat.lt_succ_self n
  · rw [List.filterMap_append, hts, List.map_append, List.filterMap_cons_some ht]
    rfl

/-- Every ident of a numbered row is that of a smaller number. -/
theorem Numbered.exists_lt {n : Nat} {ts : Expression} (h : Numbered n ts) {t : Token} (ht : t ∈ ts)
    {ident : String} (hident : t.ident = some ident) : ∃ k < n, ident = operandIdent k := by
  obtain ⟨ks, -, hlt, hts⟩ := h
  have hmem : ident ∈ ks.map operandIdent := hts ▸ List.mem_filterMap.2 ⟨t, ht, hident⟩
  obtain ⟨k, hk, rfl⟩ := List.mem_map.1 hmem
  exact ⟨k, hlt k hk, rfl⟩

/-- An edit of the last operand that `f` does not tell leaves what `f` tells of the row. -/
theorem map_editLastOperand? {α : Type} (f : Token → α) (edit : Token → Token)
    (hf : ∀ t, f (edit t) = f t) {ts ts' : Expression} (h : editLastOperand? edit ts = some ts') :
    ts'.map f = ts.map f := by
  induction ts generalizing ts' with
  | nil => cases h
  | cons t ts ih =>
    unfold editLastOperand? at h
    split at h
    · next tail htail =>
      obtain rfl := Option.some.inj h
      rw [List.map_cons, List.map_cons, ih htail]
    · split at h
      · obtain rfl := Option.some.inj h
        rw [List.map_cons, List.map_cons, hf]
      · cases h

/-- Changing the naming of the last operand leaves every ident where it is. -/
theorem filterMap_ident_editLastOperand? {change : Naming → Naming} {ts ts' : Expression}
    (h : editLastOperand? (fun t => { t with naming := change t.naming }) ts = some ts') :
    ts'.filterMap Token.ident = ts.filterMap Token.ident := by
  have hidents := map_editLastOperand? Token.ident
    (fun t => { t with naming := change t.naming }) (fun _ => rfl) h
  have hsplit (ts : Expression) : ts.filterMap Token.ident = (ts.map Token.ident).filterMap id := by
    rw [List.filterMap_map]
    rfl
  rw [hsplit, hsplit, hidents]

/-- The rows of the machine are numbered: the committed one and those of the history. -/
structure WellNumbered (m : Machine) : Prop where
  committed : Numbered m.nextIdent m.committed
  history : ∀ e ∈ m.history.entries, Numbered m.nextIdent e.tokens

theorem wellNumbered_new (limit : Nat) : (new (.ofLimit limit)).WellNumbered := by
  refine ⟨numbered_nil _, fun e he => ?_⟩
  cases he

/-- An ident that is used up leaves a gap in the numbers, and no more. -/
theorem WellNumbered.next (h : m.WellNumbered) :
    WellNumbered { m with nextIdent := m.nextIdent + 1 } :=
  ⟨h.committed.mono (Nat.le_succ _), fun e he => (h.history e he).mono (Nat.le_succ _)⟩

/-- Only a commit gives an ident, and it gives the next one. -/
theorem Move.wellNumbered (h : Move p m m') (hm : m.WellNumbered) : m'.WellNumbered := by
  cases h with
  | type _ _ =>
    obtain ⟨naming, intermediate, heq⟩ := m.exists_typeKey_eq ‹Char›
    rw [heq]
    exact ⟨hm.committed, hm.history⟩
  | waste _ _ => exact hm.next
  | push _ _ => exact ⟨hm.committed.snoc rfl, hm.next.history⟩
  | operator _ _ | opening _ | closing _ =>
    -- operators and marks have no ident
    refine ⟨hm.committed.congr ?_, hm.history⟩
    simp only [appendOperator, appendMark, List.filterMap_append]
    exact List.append_nil _
  | replace _ _ hlast _ _ =>
    refine ⟨hm.committed.congr ?_, hm.history⟩
    obtain ⟨front, hfront⟩ := List.getLast?_eq_some_iff.1 hlast
    simp only [hfront, List.dropLast_concat, List.filterMap_append]
    rfl
  | conclude _ _ =>
    -- the committed row goes into the history as it is
    refine ⟨numbered_nil _, fun e he => ?_⟩
    rcases List.mem_cons.1 (List.mem_of_mem_take he) with rfl | he
    · exact hm.committed
    · exact hm.history e he
  | fail _ | clear => exact ⟨numbered_nil _, hm.history⟩
  | edit _ htokens =>
    exact ⟨hm.committed.congr (filterMap_ident_editLastOperand? htokens), hm.history⟩
  | load hentry => exact ⟨hm.history _ hentry, hm.history⟩
  | _ => exact ⟨hm.committed, hm.history⟩

/-! ## Every operator is one of the four -/

/-- Which operators stand in the row is told by the sorts and texts of its tokens. -/
theorem known_congr {ts ts' : Expression}
    (h : ts'.map (fun t => (t.isOperator, t.value)) = ts.map fun t => (t.isOperator, t.value)) :
    ts'.Known ↔ ts.Known := by
  have hsplit (ts : Expression) : ts.Known ↔
      ∀ p ∈ ts.map fun t => (t.isOperator, t.value),
        p.1 = true → ∃ op : Operator, p.2 = op.symbol := by
    rw [List.forall_mem_map]
    rfl
  rw [hsplit, hsplit, h]

/-- Changing the naming of the last operand leaves every operator as it is. -/
theorem known_editLastOperand? {change : Naming → Naming} {ts ts' : Expression}
    (h : editLastOperand? (fun t => { t with naming := change t.naming }) ts = some ts') :
    ts'.Known ↔ ts.Known :=
  known_congr <| map_editLastOperand? (fun t => (t.isOperator, t.value))
    (fun t => { t with naming := change t.naming }) (fun _ => rfl) h

/-- The rows of the machine have known operators: the committed one and those of the history. -/
structure KnownRows (m : Machine) : Prop where
  committed : m.committed.Known
  history : ∀ e ∈ m.history.entries, e.tokens.Known

theorem knownRows_new (limit : Nat) : (new (.ofLimit limit)).KnownRows :=
  ⟨Expression.known_nil, fun _ he => absurd he List.not_mem_nil⟩

/-- An operator is put into the row, or changed there, only by its symbol. -/
theorem Move.knownRows (h : Move p m m') (hm : m.KnownRows) : m'.KnownRows := by
  cases h with
  | type _ _ =>
    obtain ⟨naming, intermediate, heq⟩ := m.exists_typeKey_eq ‹Char›
    rw [heq]
    exact ⟨hm.committed, hm.history⟩
  | push _ _ | opening _ | closing _ => exact ⟨hm.committed.concat rfl, hm.history⟩
  | operator _ _ => exact ⟨hm.committed.concat_operator rfl, hm.history⟩
  | replace _ _ hlast _ _ =>
    obtain ⟨front, hfront⟩ := List.getLast?_eq_some_iff.1 hlast
    have hknown := hm.committed
    rw [hfront, Expression.known_append] at hknown
    refine ⟨?_, hm.history⟩
    simp only [hfront, List.dropLast_concat]
    exact hknown.1.concat_operator rfl
  | conclude _ _ =>
    -- the committed row goes into the history as it is
    refine ⟨Expression.known_nil, fun e he => ?_⟩
    rcases List.mem_cons.1 (List.mem_of_mem_take he) with rfl | he
    · exact hm.committed
    · exact hm.history e he
  | fail _ | clear => exact ⟨Expression.known_nil, hm.history⟩
  | edit _ htokens => exact ⟨(known_editLastOperand? htokens).2 hm.committed, hm.history⟩
  | load hentry => exact ⟨hm.history _ hentry, hm.history⟩
  | _ => exact ⟨hm.committed, hm.history⟩

end Machine

end Keypad
