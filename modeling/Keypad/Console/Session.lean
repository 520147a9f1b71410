import Keypad.Lexeme.Command
import Keypad.Machine.View

/-!
# The console at work

The console feeds lines of key text to a machine. A fault aborts the rest of its line and is told
on the error stream; after every line the expression and the display are printed again. What is
printed and logged is a list of emissions in order, so a run is a function of its lines. A fault
that arises while printing ends the run, and so does one that is no fault of a user.
-/

namespace Keypad.Console

open Machine (Outcome)
open Machine.Outcome

/-- Something printed or logged. -/
inductive Emission where
  /-- A line on the output stream. -/
  | out (line : String)
  /-- A line on the error stream. -/
  | err (line : String)
  /-- A record of the machine's log. -/
  | log (event : Event)
deriving DecidableEq

/-- The help text. -/
def help : String := "\n".intercalate [
  "0-9 .        digits",
  "+ - * / x    operators (× ÷ − also accepted)",
  "( )          grouping",
  "=            calculate",
  "c            clear",
  "<            delete last digit",
  "_            toggle sign",
  "%            percentage",
  "'name'       label the number being typed (^'name' for the last one entered)",
  "'name':red   label and colour it (red yellow blue orange green white)",
  "[unit]       unit of the number being typed (^[unit] for the last one entered)",
  ">name        save the number being typed as a variable",
  "$name        type a saved variable",
  "!name        delete a saved variable",
  "@N           load history entry N",
  "h            list history",
  "v            list variables",
  "?            this help"]

/-- One entry of the history on a line, behind its index. -/
def historyLine (index : Nat) (entry : Entry) : String :=
  toString index ++ ": " ++ Expression.render entry.tokens ++ " = " ++ Number.line entry.result none

/-- One variable on a line. -/
def variableLine (v : Variable) : String := v.label ++ "\t" ++ Number.line v.value v.unit

/-- Does an action of the machine. -/
def act (m : Machine) (action : Action) : Outcome Emission := (m.perform action).mapLog .log

/-- Keeps the number being typed under a name, and names it so. -/
def keep (m : Machine) (name : String) : Outcome Emission :=
  if m.failed then refused m .nothingToSave
  else
    (act m (.save name m.buffer m.naming.unit (m.naming.color.map Color.name))).andThen fun m =>
      act m (.label Target.current.name (some name) .keep)

/-- Carries out one command. -/
def carryOut (m : Machine) : Command → Outcome Emission
  | .act action => act m action
  | .store name => keep m name
  | .showHistory => ⟨m, none, m.history.entries.mapIdx fun i e => .out (historyLine i e)⟩
  | .showVariables => ⟨m, none, m.store.saved.map fun v => .out (variableLine v)⟩
  | .showHelp => noted m (.err help)

/-- Carries out commands in order, until one is refused. -/
def carryOutAll (m : Machine) : List Command → Outcome Emission
  | [] => done m
  | command :: commands => (carryOut m command).andThen fun m => carryOutAll m commands

/-- Carries out the commands of a lexeme. -/
def carryOutLexeme (m : Machine) (lexeme : Lexeme) : Outcome Emission :=
  match lexeme.commands with
  | .error fault => refused m fault
  | .ok commands => carryOutAll m commands

/-- Carries out lexemes in order, until one is refused. -/
def carryOutLexemes (m : Machine) : List Lexeme → Outcome Emission
  | [] => done m
  | lexeme :: lexemes =>
    (carryOutLexeme m lexeme).andThen fun m => carryOutLexemes m lexemes

/-- Feeds a line of key text to the machine. What cannot be lexed is a fault once all before it has
been carried out. -/
def feed (m : Machine) (line : String) : Outcome Emission :=
  let (lexemes, rest) := Lexeme.scan line.toList
  (carryOutLexemes m lexemes).andThen fun m => ⟨m, Lexeme.unlexedFault? rest, []⟩

/-- Prints the expression, if any of it is committed, the display and the notice. -/
def redraw (m : Machine) : Outcome Emission :=
  match m.expression with
  | .error fault => refused m fault
  | .ok tokens =>
    let shown := if m.committed.isEmpty then [] else [Emission.out (Expression.render tokens)]
    let notice := (Naming.unlessEmpty m.notice).toList.map Emission.err
    ⟨m, none, shown ++ [.out m.displayLine] ++ notice⟩

/-- Tells the fault of an outcome and goes on, if it is one that users are told of. -/
def told (o : Outcome Emission) : Outcome Emission :=
  match o.fault with
  | none => o
  | some fault =>
    if fault.kind.isTold then ⟨o.machine, none, o.log ++ [.err fault.message]⟩ else o

/-- Feeds a line and prints what it comes to. A fault on the line goes no further if it can be
told. -/
def runLine (m : Machine) (line : String) : Outcome Emission := (told (feed m line)).andThen redraw

/-- Runs the machine over lines, until a fault ends the run. -/
def execute (m : Machine) : List String → Outcome Emission
  | [] => done m
  | line :: lines => (runLine m line).andThen fun m => execute m lines

end Keypad.Console
