import Keypad.History
import Keypad.Machine.Buffer
import Keypad.Machine.Event
import Keypad.Variables

/-!
# The machine

A `Machine` is what has been typed so far: the buffer with the number being typed, the tokens
committed before it, and the flags that say how the next key continues. An action takes a machine to
an `Outcome`: the machine afterwards, the fault if the action was refused, and the records for the
log. An action that is refused may still have changed the machine, so a fault does not replace it.
-/

namespace Keypad

/-- The calculator between two actions. -/
structure Machine where
  /-- The text of the number being typed, of a result, or the error marker. -/
  buffer : String
  /-- What is attached to the number being typed. -/
  naming : Naming
  /-- The tokens committed so far. -/
  committed : Expression
  /-- Whether the next digit starts a new number. -/
  settled : Bool
  /-- Whether the buffer is an intermediate result, which cannot be named. -/
  intermediate : Bool
  /-- Whether the last calculation failed. -/
  failed : Bool
  /-- A remark for the user on the last action. -/
  notice : Option String
  history : History
  store : Variables
  /-- The number that the next committed operand is told apart by. -/
  nextIdent : Nat
deriving DecidableEq

namespace Machine

/-- The machine before anything is typed, with the history given. -/
def new (history : History) : Machine where
  buffer := Buffer.start
  naming := .blank
  committed := []
  settled := false
  intermediate := false
  failed := false
  notice := none
  history := history
  store := .empty
  nextIdent := 0

/-- What an action comes to, with log records of a type. -/
structure Outcome (ε : Type) where
  machine : Machine
  fault : Option Fault
  log : List ε
deriving DecidableEq

namespace Outcome

variable {ε δ : Type}

/-- The action ran to its end. -/
def done (m : Machine) : Outcome ε := ⟨m, none, []⟩

/-- The action ran to its end and left a record. -/
def noted (m : Machine) (record : ε) : Outcome ε := ⟨m, none, [record]⟩

/-- The action was refused. -/
def refused (m : Machine) (fault : Fault) : Outcome ε := ⟨m, some fault, []⟩

/-- Goes on with the machine unless the action was refused, and keeps the log of both. -/
def andThen (o : Outcome ε) (next : Machine → Outcome ε) : Outcome ε :=
  match o.fault with
  | some _ => o
  | none =>
    let o' := next o.machine
    ⟨o'.machine, o'.fault, o.log ++ o'.log⟩

/-- The outcome with other records. -/
def mapLog (f : ε → δ) (o : Outcome ε) : Outcome δ := ⟨o.machine, o.fault, o.log.map f⟩

/-- After a refusal nothing more is done. -/
theorem andThen_of_fault {o : Outcome ε} {fault : Fault} (h : o.fault = some fault)
    (next : Machine → Outcome ε) : o.andThen next = o := by
  simp [andThen, h]

/-- An action that ran to its end is followed by the next one, with the records of both. -/
theorem andThen_of_done {o : Outcome ε} (h : o.fault = none) (next : Machine → Outcome ε) :
    o.andThen next =
      ⟨(next o.machine).machine, (next o.machine).fault, o.log ++ (next o.machine).log⟩ := by
  simp [andThen, h]

/-- An action that does nothing can be left out in front of another. -/
theorem done_andThen (m : Machine) (next : Machine → Outcome ε) :
    (done m).andThen next = next m := by
  simp [andThen, done]

/-- An action that does nothing can be left out behind another. -/
theorem andThen_done (o : Outcome ε) : o.andThen done = o := by
  cases ho : o.fault with
  | some fault => exact andThen_of_fault ho done
  | none =>
    rw [andThen_of_done ho]
    simp [done, ← ho]

/-- How a sequence of three is bracketed does not matter. -/
theorem andThen_assoc (o : Outcome ε) (f g : Machine → Outcome ε) :
    (o.andThen f).andThen g = o.andThen fun m => (f m).andThen g := by
  cases ho : o.fault with
  | some fault => simp [andThen, ho]
  | none =>
    cases hf : (f o.machine).fault with
    | some fault => simp [andThen, ho, hf]
    | none => simp [andThen, ho, hf, List.append_assoc]

end Outcome

open Outcome

/-- Runs the action on its argument if that was read, and refuses it unchanged if not. -/
def checking {α : Type} (m : Machine) (argument : Except Fault α) (action : α → Outcome Event) :
    Outcome Event :=
  match argument with
  | .error fault => refused m fault
  | .ok a => action a

/-- Takes the notice down and runs the action, unless the machine is in the error state. -/
def guarded (m : Machine) (name : String) (action : Machine → Outcome Event) : Outcome Event :=
  let m := { m with notice := none }
  if m.failed then noted m (.ignored name) else action m

/-- What tells the `n`th committed operand apart. -/
def operandIdent (n : Nat) : String := "operand-" ++ toString n

/-- What marks the number being typed in the shown expression. -/
def currentIdent : String := "current"

/-- What the buffer holds in the error state. -/
def errorMarker : String := "Error"

/-- The machine at the start of a new number: nothing of the old one is kept but its text. -/
def beginEntry (m : Machine) : Machine :=
  { m with naming := .blank, settled := false, intermediate := false }

/-- Adds the number in the buffer to the expression. Its ident is used up even if the buffer holds
no number and the commit is refused. -/
def commit (m : Machine) : Outcome Event :=
  let m' := { m with nextIdent := m.nextIdent + 1 }
  match Token.operand m.buffer m.naming (some (operandIdent m.nextIdent)) with
  | .error fault => refused m' fault
  | .ok token => noted { m' with committed := m.committed ++ [token] } (.committed token)

/-- Adds the number in the buffer to the expression if it is still being typed. -/
def commitTyped (m : Machine) : Outcome Event := if m.settled then done m else m.commit

/-- The machine in the error state. -/
def enterError (m : Machine) : Machine :=
  { m with
    buffer := errorMarker, naming := .blank, committed := [], settled := true,
    intermediate := false, failed := true }

/-- Goes into the error state on account of a fault. -/
def fail (m : Machine) (fault : Fault) : Outcome Event := noted m.enterError (.failed fault)

/-- The machine as it was at the start, but with its history, variables and idents. -/
def cleared (m : Machine) : Machine :=
  { new m.history with store := m.store, nextIdent := m.nextIdent }

end Machine

end Keypad
