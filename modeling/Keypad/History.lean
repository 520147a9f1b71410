import Keypad.Token

/-!
# History

The log of finished calculations, latest first and bounded. The bound is part of the type: a
`History` never holds more entries than its limit.
-/

namespace Keypad

/-- A finished calculation: its row of tokens and the text of its result. -/
structure Entry where
  tokens : Expression
  result : String
deriving DecidableEq

/-- Finished calculations, latest first. -/
structure History where
  /-- The most entries that are kept. -/
  limit : Nat
  entries : List Entry
  limit_pos : 0 < limit
  length_le : entries.length ≤ limit
deriving DecidableEq

namespace History

/-- The limit where none is asked for. -/
def defaultLimit : Nat := 50

/-- An empty history with a limit. Zero asks for the default. -/
def ofLimit (limit : Nat) : History where
  limit := if limit = 0 then defaultLimit else limit
  entries := []
  limit_pos := by
    split
    · decide
    · omega
  length_le := Nat.zero_le _

/-- The largest limit: what a machine word of 64 bits with a sign holds. -/
def largestLimit : Int := 2 ^ (63 : Nat) - 1

/-- An empty history with the limit asked for. It has to fit a machine word, and must not be
negative. -/
def withLimit : Option Int → Except Fault History
  | none => .ok (ofLimit 0)
  | some limit =>
    if largestLimit < limit ∨ limit < -largestLimit - 1 then .error (.unboundedLimit limit)
    else if limit < 0 then .error (.negativeLimit limit)
    else .ok (ofLimit limit.toNat)

/-- The history with a calculation added. If it was full, the oldest entry is dropped. -/
def push (h : History) (entry : Entry) : History where
  limit := h.limit
  entries := (entry :: h.entries).take h.limit
  limit_pos := h.limit_pos
  length_le := List.length_take_le _ _

/-- The entry at an index: from the latest on, or if negative from the oldest back. -/
def get? (h : History) (index : Int) : Option Entry :=
  let place := if index < 0 then index + h.entries.length else index
  if place < 0 then none else h.entries[place.toNat]?

/-- What the limit leaves of the new entry in front of the old ones. -/
theorem entries_push (h : History) (entry : Entry) :
    (h.push entry).entries = (entry :: h.entries).take h.limit := rfl

end History

end Keypad
