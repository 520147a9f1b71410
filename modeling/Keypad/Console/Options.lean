import Keypad.Console.Listing

/-!
# The command line

What the console is asked to do, and what it then prints. Lines come from the arguments or from
standard input; they are run unless a listing or the grammar is asked for.
-/

namespace Keypad.Console

/-- What the console does with its lines. -/
inductive Mode where
  | execute
  | list
  | grammar
deriving DecidableEq

/-- What the command line asks for. -/
structure Options where
  verbose : Bool
  mode : Mode
  /-- The lines given as arguments, if they are not to be read from the input. -/
  lines : Option (List String)
deriving DecidableEq

namespace Options

/-- Nothing asked for: lines are read and run. -/
def default : Options := ⟨false, .execute, none⟩

/-- The options with the mode asked for, unless another one was asked for before. -/
def withMode (options : Options) (mode : Mode) : Option Options :=
  if options.mode = .execute ∨ options.mode = mode then some { options with mode := mode } else none

/-- Reads the arguments. All that stands behind the option for expressions are lines. -/
def parse (options : Options) : List String → Option Options
  | [] => some options
  | arg :: args =>
    if arg = "-e" ∨ arg = "--expression" then some { options with lines := some args }
    else if arg = "-v" ∨ arg = "--verbose" then { options with verbose := true }.parse args
    else if arg = "-D" ∨ arg = "--dump" then (options.withMode .list).bind (parse · args)
    else if arg = "-G" ∨ arg = "--raw-grammar" then (options.withMode .grammar).bind (parse · args)
    else none

end Options

/-- The lines of a text, each with its line feed. -/
def splitLines : List Char → List (List Char)
  | [] => []
  | c :: cs =>
    if c = '\n' then [c] :: splitLines cs
    else
      match splitLines cs with
      | [] => [[c]]
      | line :: lines => (c :: line) :: lines

/-- The lines of an input text, for the console to run. -/
def linesOf (text : String) : List String := (splitLines text.toList).map String.ofList

/-- What the console prints and logs on lines, and the fault that ended it. -/
def emissions (mode : Mode) (lines : List String) : List Emission × Option Fault :=
  match mode with
  | .execute =>
    let outcome := execute (.new (.ofLimit 0)) lines
    (outcome.log, outcome.fault)
  | .list => listing lines
  | .grammar => ([.out Form.grammar], none)

/-- The line that an emission puts on the output stream. -/
def Emission.outLine? : Emission → Option String
  | out line => some line
  | err _ | log _ => none

/-- What stands before a record of the log: its level, and the name it is logged under. -/
def logHeading : String := "DEBUG:labelcalc.machine:"

/-- The line that an emission puts on the error stream. Records of the log go there if they are
asked for. -/
def Emission.errLine? (verbose : Bool) : Emission → Option String
  | out _ => none
  | err line => some line
  | log event => if verbose then some (logHeading ++ event.text) else none

end Keypad.Console
