import Keypad.Console.Options

/-!
# The program

Reads the command line, gets the lines, and prints what the console makes of them. There is no
prompt: a terminal is read like any other input, and no lines are kept for a later session.
-/

namespace Keypad.Console

/-- How the program is called. -/
def usage : String := "usage: keypad [-v] [-D | -G] [-e EXPRESSION ...]"

/-- The lines to work on: those given as arguments, or those of the input. -/
def inputLines (options : Options) : IO (List String) := do
  match options.lines with
  | some lines => return lines
  | none =>
    if options.mode = .grammar then
      return []
    let stdin ← IO.getStdin
    return linesOf (← stdin.readToEnd)

/-- Prints one emission on the stream it belongs to. -/
def emit (verbose : Bool) (emission : Emission) : IO Unit := do
  if let some line := emission.outLine? then
    IO.println line
  if let some line := emission.errLine? verbose then
    IO.eprintln line

/-- Runs the console as the arguments ask, and gives the exit code. -/
def runProgram (args : List String) : IO UInt32 := do
  match Options.default.parse args with
  | none =>
    IO.eprintln usage
    return 2
  | some options =>
    let (printed, fault) := emissions options.mode (← inputLines options)
    printed.forM (emit options.verbose)
    match fault with
    | none => return 0
    | some fault =>
      if fault.kind.isTold then
        IO.eprintln fault.message
      return 1

end Keypad.Console

def main (args : List String) : IO UInt32 := Keypad.Console.runProgram args
