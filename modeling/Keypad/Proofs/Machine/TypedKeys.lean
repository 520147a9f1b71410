import Keypad.Proofs.Machine.Invariants
import Keypad.Proofs.Machine.TypedNumber

/-!
# Typed keys have one normal form

Keys of a number that are pressed where a number is awaited leave `Buffer.typedForm` in the buffer,
whether the machine has just been cleared or its old number is settled. Nothing else remains of the
keys, and of the machine everything else that was there but for the naming of the old number. The
text in the buffer is the numeral of the decimal that the keys write.

* `run_keys` — the keys as presses, one by one.
-/

namespace Keypad.Machine

open Outcome

variable {m : Machine}

/-- The presses of the keys of a number. -/
def presses (keys : List Char) : List Action :=
  keys.map fun key => .digit (String.singleton key)

/-- Outside the error state no key is refused, and each is typed onto what the one before it
left. -/
theorem run_presses (hm : m.failed = false) {keys : List Char}
    (hkeys : ∀ c ∈ keys, Buffer.isKey c = true) :
    Along (fun m action => (m.perform action).fault = none) m (presses keys) ∧
      m.run (presses keys) = keys.foldl (fun m key => m.quiet.typeKey key) m := by
  induction keys generalizing m with
  | nil => exact ⟨trivial, rfl⟩
  | cons key keys ih =>
    obtain ⟨hkey, hkeys⟩ := List.forall_mem_cons.1 hkeys
    obtain ⟨halong, hrun⟩ := ih ((m.quiet.typeKey_failed key).trans hm) hkeys
    rw [presses, List.map_cons, Along, run_cons, perform_key hm hkey, List.foldl_cons]
    exact ⟨⟨rfl, halong⟩, hrun⟩

/-- Outside the error state, on a machine that has just been cleared or whose number is settled, the
keys of a number are not refused. They leave a number without naming that is still being typed, its
text in normal form, and nothing else on the machine is different, but for the notice. The text says
exactly the decimal that the keys write, and so do the keys without all points but the first, if
there is a digit among them. -/
theorem run_keys (hm : m.failed = false)
    (hanew : m.settled = true ∨ ∃ m₀ : Machine, m₀.clear.machine = m) {keys : List Char}
    (hne : keys ≠ []) (hkeys : ∀ c ∈ keys, Buffer.isKey c = true) :
    Along (fun m action => (m.perform action).fault = none) m (presses keys) ∧
      m.run (presses keys) =
        { m with
          buffer := String.ofList (Buffer.typedForm keys), naming := .blank, settled := false,
          intermediate := false, notice := none } ∧
      Numeral.parse (Buffer.typedForm keys) =
        some (.decimal false (Buffer.keyedDecimal keys)) ∧
      ((∃ c ∈ keys, c.isDigit = true) →
        Numeral.parse (Buffer.singlePoint keys) =
          some (.decimal false (Buffer.keyedDecimal keys))) := by
  have hawaits : m.AwaitsNumber := by
    refine ⟨hm, hanew.imp_right ?_⟩
    rintro ⟨m₀, rfl⟩
    exact ⟨rfl, rfl, rfl⟩
  obtain ⟨halong, hrun⟩ := run_presses hm hkeys
  refine ⟨halong, hrun.trans (hawaits.foldl_typeKey hne hkeys), ?_, fun hdigit => ?_⟩
  · exact (Buffer.spells_typedForm hkeys).parse_signed false
  · exact (Buffer.spells_singlePoint hkeys hdigit).parse_signed false

/-- The machine with the result of a sum, which is not cleared but settled. -/
def summed : Machine :=
  (new (.ofLimit 0)).run [.digit "7", .operator "+", .digit "5", .calculate]

/-- Zeros at the front go, and so does the second point; a lone point has its zero supplied. -/
theorem run_keys_of_summed :
    summed.failed = false ∧ summed.settled = true ∧
      (∀ c ∈ "00.07.0".toList, Buffer.isKey c = true) ∧
      summed.run (presses "00.07.0".toList) =
        { summed with
          buffer := "0.070", naming := .blank, settled := false, intermediate := false,
          notice := none } ∧
      Numeral.parse "00.070".toList = some (.decimal false ⟨70, -3⟩) ∧
      ((new (.ofLimit 0)).clear.machine.run (presses ['.'])).buffer = "0." := by
  have hm : summed.failed = false := by decide +kernel
  have hs : summed.settled = true := by decide +kernel
  have hkeys : ∀ c ∈ "00.07.0".toList, Buffer.isKey c = true :=
    List.all_eq_true.1 (by decide +kernel)
  have hpoint : ∀ c ∈ ['.'], Buffer.isKey c = true := List.forall_mem_singleton.2 rfl
  obtain ⟨-, hrun, -, hdecimal⟩ := run_keys hm (.inl hs) (by decide) hkeys
  obtain ⟨-, hpointed, -⟩ := run_keys (m := (new (.ofLimit 0)).clear.machine) rfl
    (.inr ⟨_, rfl⟩) (by decide) hpoint
  exact ⟨hm, hs, hkeys, hrun, hdecimal ⟨'7', by decide, rfl⟩, congrArg Machine.buffer hpointed⟩

end Keypad.Machine
