import Keypad.Proofs.Console.Passage
import Keypad.Proofs.Console.StoreRecall
import Keypad.Proofs.Machine.TextMoves
import Keypad.Proofs.Machine.TidyText

/-!
# The buffer stays tidy

Whatever the lines that are given to the console ask for, the buffer holds a tidy text or the error
marker. Keys and results are tidy, edits leave a tidy text tidy, and what comes back out of the
variables was kept from the buffer. The marker is no text to be edited, so it has to be known that
it stands in the buffer in the error state only, where no edit is done.

* `Move.marker`        — the marker is left to the error state.
* `Tidy.perform`       — an action that brings tidy numbers leaves a machine tidy.
* `passed_tidy_buffer` — the buffers that a run passes through.
-/

namespace Keypad

namespace Machine

open Outcome

variable {p : String → Prop} {m m' : Machine}

/-! ## The error marker -/

theorem isReadable_errorMarker : Number.isReadable errorMarker = false := by decide +kernel

/-- No number is the error marker. -/
theorem ne_errorMarker_of_isReadable {text : String} (h : Number.isReadable text = true) :
    text ≠ errorMarker := by
  rintro rfl
  cases isReadable_errorMarker.symm.trans h

/-- The marker does not end with a key of a number. -/
theorem push_ne_errorMarker {key : Char} (hkey : Buffer.isKey key = true) (text : String) :
    text.push key ≠ errorMarker := by
  intro h
  have hlast := congrArg (fun s => s.toList.getLast?) h
  simp only [String.toList_push, List.getLast?_concat] at hlast
  obtain rfl : key = 'r' := Option.some.inj hlast
  cases hkey

/-- No key types the marker where it did not stand. -/
theorem typeKey_ne_errorMarker {key : Char} (hkey : Buffer.isKey key = true)
    (hbuffer : m.buffer ≠ errorMarker) : (m.typeKey key).buffer ≠ errorMarker := by
  obtain ⟨naming, intermediate, heq⟩ := m.exists_typeKey_eq key
  rw [heq]
  dsimp only [keyedText]
  split
  · exact ne_errorMarker_of_isReadable (Buffer.isReadable_first hkey)
  · unfold Buffer.type Buffer.typePoint Buffer.typeDigit
    split
    · split
      · exact hbuffer
      · exact push_ne_errorMarker rfl _
    · split
      · split
        · exact hbuffer
        · exact push_ne_errorMarker hkey _
      · exact push_ne_errorMarker hkey _

/-- The sign of a number does not make it the marker. -/
theorem toggleSign_ne_errorMarker {text : String} (h : Number.isReadable text = true) :
    Buffer.toggleSign text ≠ errorMarker := by
  intro heq
  rcases Buffer.minus_cases text with ⟨rest, rfl⟩ | hminus
  · rw [Buffer.toggleSign_of_minus] at heq
    have hrest := congrArg String.toList heq
    rw [String.toList_ofList] at hrest
    rw [hrest] at h
    exact absurd h (by decide +kernel)
  · rw [Buffer.toggleSign_of_ne_minus hminus] at heq
    have hhead := congrArg (fun s => s.toList.head?) heq
    simp only [String.toList_ofList] at hhead
    cases hhead

/-- No tidy text is the marker. -/
theorem ne_errorMarker_of_tidy {text : String} (h : Buffer.Tidy text) : text ≠ errorMarker := by
  rintro rfl
  rcases h.cases_sign with hmagnitude | ⟨magnitude, heq, -⟩
  · obtain ⟨c, rest, htext, hdigit⟩ := hmagnitude.head
    cases htext
    cases hdigit
  · have hhead := congrArg (fun s => s.toList.head?) heq
    simp only [String.toList_ofList] at hhead
    cases hhead

/-- The marker is not put into the buffer but in the error state, and does not stay there out of
it. -/
theorem Move.marker (hp : ∀ value, p value → value ≠ errorMarker) (h : Move p m m')
    (hrecall : m.Recallable) (hm : m.buffer = errorMarker → m.failed = true) :
    m'.buffer = errorMarker → m'.failed = true := by
  have hother {text : String} (htext : text ≠ errorMarker) (failed : Bool) :
      text = errorMarker → failed = true := fun heq => absurd heq htext
  cases h with
  | type hfailed hkey =>
    refine hother (typeKey_ne_errorMarker hkey fun heq => ?_) _
    cases hfailed.symm.trans (hm heq)
  | conclude _ _ => exact hother (ne_errorMarker_of_isReadable (isReadable_resultText _)) _
  | fail _ => exact fun _ => rfl
  | clear => exact hother (show Buffer.start ≠ errorMarker by decide) _
  | erase _ _ =>
    -- without this step `exact` would unfold the edit, and so it would in the cases below
    dsimp only
    exact hother (ne_errorMarker_of_isReadable (isReadable_erase m.buffer)) _
  | sign _ hread _ =>
    dsimp only
    exact hother (toggleSign_ne_errorMarker (Number.isReadable_iff.2 ⟨_, hread⟩)) _
  | percent _ x =>
    dsimp only
    exact hother (ne_errorMarker_of_isReadable
      (Number.isReadable_iff.2 ⟨_, x.read_canonicalText⟩)) _
  | load hentry => exact hother (ne_errorMarker_of_isReadable (hrecall.results _ hentry)) _
  | retrieve _ hvalue _ =>
    dsimp only
    rcases hvalue with hvalue | hkept
    · exact hother (hp _ hvalue) _
    · exact hother (ne_errorMarker_of_isReadable (hkept.isReadable hrecall)) _
  | _ => exact hm

/-! ## What is kept -/

/-- `p` holds of what is saved, if it holds of what was saved before and of what is brought. -/
theorem perform_saved {action : Action} (haction : action.Brings p)
    (hm : ∀ v ∈ m.store.saved, p v.value) :
    ∀ v ∈ (m.perform action).machine.store.saved, p v.value := by
  cases action with
  | save label value unit color =>
    exact checking_elim (P := fun o => ∀ v ∈ o.machine.store.saved, p v.value) (fun _ => hm)
      fun vs hvs => forall_saved_of_save p hvs hm fun _ => haction
  | forget label => exact fun v hv => hm v (Variables.mem_delete.1 hv).1
  | _ =>
    rw [perform_store fun _ => id]
    exact hm

/-- Whatever is in the buffer or can come back into it is tidy, and the buffer holds the marker in
the error state. -/
structure Tidy (m : Machine) : Prop where
  sound : m.Sound
  recallable : m.Recallable
  marker : m.buffer = errorMarker → m.failed = true
  entries : ∀ e ∈ m.history.entries, e.IsCalculated
  saved : ∀ v ∈ m.store.saved, Buffer.Tidy v.value
  buffer : m.failed = false → Buffer.Tidy m.buffer

/-- A new machine is tidy. -/
theorem tidy_new (limit : Nat) : (new (.ofLimit limit)).Tidy where
  sound := sound_new limit
  recallable := recallable_new limit
  marker h := absurd h (show Buffer.start ≠ errorMarker by decide)
  entries e he := by cases he
  saved v hv := by cases hv
  buffer _ := .start

/-- A move of the text leaves a tidy one, or the marker. -/
theorem TextMove.tidy {text text' : String} (h : TextMove p text text')
    (hp : ∀ value, p value → Buffer.Tidy value) (htext : Buffer.Tidy text) :
    text' = errorMarker ∨ Buffer.Tidy text' := by
  cases h with
  | keep => exact .inr htext
  | start => exact .inr .start
  | fail => exact .inl rfl
  | first hkey => exact .inr (.first hkey)
  | type hkey => exact .inr (htext.type hkey)
  | erase => exact .inr htext.erase
  | sign _ => exact .inr htext.toggleSign
  | percent x => exact .inr x.tidy_canonicalText
  | result x => exact .inr x.tidy_resultText
  | recalled hvalue => exact .inr (hp _ hvalue)

/-- What a tidy machine recalls is tidy. -/
theorem Tidy.recalls (h : m.Tidy) {action : Action} (haction : action.Brings Buffer.Tidy)
    {value : String} (hrecalls : action.Recalls m value) : Buffer.Tidy value := by
  cases action with
  | retrieve name =>
    obtain ⟨v, hv, rfl⟩ := hrecalls
    exact h.saved v (mem_saved_of_findVariable hv)
  | retrieveSaved saved naming =>
    obtain rfl : value = saved := hrecalls
    exact haction
  | _ => exact hrecalls.elim

/-- Out of the error state lead a clear, and a result that is loaded. -/
theorem Tidy.buffer_of_failed (h : m.Tidy) (hm : m.failed = true) {action : Action}
    (hm' : (m.perform action).machine.failed = false) :
    Buffer.Tidy (m.perform action).machine.buffer := by
  by_cases hrecovers : (Command.act action).Recovers m.history
  · cases action with
    | clear => exact .start
    | load index =>
      obtain ⟨hindex, hlt⟩ := hrecovers
      obtain ⟨i, rfl⟩ := Int.eq_ofNat_of_zero_le hindex
      have hi : i < m.history.entries.length := Int.ofNat_lt.1 hlt
      obtain ⟨x, -, hresult⟩ := (h.entries _ (List.getElem_mem hi)).result
      rw [perform, load_of_lt m hi]
      have htidy := x.tidy_resultText
      rw [← hresult] at htidy
      exact htidy
    | _ => exact hrecovers.elim
  · rw [perform_inert hm h.sound.notice hrecovers] at hm'
    cases hm.symm.trans hm'

/-- An action leaves a tidy machine tidy, if the numbers that are brought are tidy. -/
theorem Tidy.perform (h : m.Tidy) {action : Action} (haction : action.Brings Buffer.Tidy) :
    (m.perform action).machine.Tidy := by
  have hback : action.HandsBack Buffer.Tidy m := by
    cases action with
    | retrieveSaved value naming => exact .inl haction
    | _ => trivial
  obtain ⟨hrecallable, hmarker⟩ := (perform_moves hback).keep
    (P := fun m => m.Recallable ∧ (m.buffer = errorMarker → m.failed = true))
    (fun m m' hmove hm =>
      ⟨hmove.recallable hm.1, hmove.marker (fun _ => ne_errorMarker_of_tidy) hm.1 hm.2⟩)
    ⟨h.recallable, h.marker⟩
  refine ⟨h.sound.perform action, hrecallable, hmarker,
    forall_mem_entries_perform h.entries fun _ => isCalculated_of_calculation?,
    perform_saved haction h.saved, fun hm' => ?_⟩
  -- out of the error state the text is moved; in it there is none, so a tidy one has to be put
  -- there
  cases hm : m.failed with
  | true => exact h.buffer_of_failed hm hm'
  | false =>
    have hmove := perform_textMove h.entries action
    rcases hmove.tidy (fun _ => h.recalls haction) (h.buffer hm) with herror | htidy
    · cases hm'.symm.trans (hmarker herror)
    · exact htidy

end Machine

namespace Console

open Machine

variable {m : Machine}

/-- The commands of a lexeme bring no number, and the console saves the one in the buffer. -/
theorem brings_of_mem_actionsOf {lexeme : Lexeme} {commands : List Command}
    (hcommands : lexeme.commands = .ok commands) {command : Command} (hcommand : command ∈ commands)
    (hm : m.Tidy) {action : Action} (haction : action ∈ actionsOf m command) :
    action.Brings Buffer.Tidy := by
  cases command with
  | act action' =>
    obtain rfl := List.mem_singleton.1 haction
    exact Command.brings_of_commands hcommands hcommand
  | store name =>
    rw [actionsOf] at haction
    split at haction
    · cases haction
    · next hfailed =>
      rcases List.mem_cons.1 haction with rfl | haction
      · exact hm.buffer (Bool.eq_false_iff.2 hfailed)
      · obtain rfl := List.mem_singleton.1 haction
        trivial
  | showHistory => cases haction
  | showVariables => cases haction
  | showHelp => cases haction

/-- Whatever lines are given to the console, in every state that its machine passes through, up to
the one that the run comes to, the buffer holds the error marker or a tidy text. -/
theorem passed_tidy_buffer (limit : Nat) (lines : List String) :
    (passed (new (.ofLimit limit)) lines).getLastD (new (.ofLimit limit)) =
        (execute (new (.ofLimit limit)) lines).machine ∧
      ∀ m ∈ new (.ofLimit limit) :: passed (new (.ofLimit limit)) lines,
        m.buffer = errorMarker ∨ Buffer.Tidy m.buffer := by
  have hnew := tidy_new limit
  have hpassed : ∀ m ∈ passed (new (.ofLimit limit)) lines, m.Tidy := by
    refine forall_mem_passed (fun lexeme commands hcommands command hcommand m hm => ?_) hnew lines
    exact fun action haction m' hm' =>
      hm'.perform (brings_of_mem_actionsOf hcommands hcommand hm haction)
  refine ⟨getLastD_passed _ lines, fun m hmem => ?_⟩
  have htidy := List.forall_mem_cons.2 ⟨hnew, hpassed⟩ m hmem
  cases hfailed : m.failed with
  | true => exact .inl (htidy.sound.inError hfailed).buffer
  | false => exact .inr (htidy.buffer hfailed)

end Console

end Keypad
