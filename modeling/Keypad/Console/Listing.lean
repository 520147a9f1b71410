import Keypad.Console.Session
import Keypad.Lexeme.Grammar

/-!
# Listings

Instead of running lines, the console can list their lexemes with what they do, or print the grammar
they are lexed by.
-/

namespace Keypad.Console

open Keypad.Text

/-- The fields of a line, with tabs between. -/
def tabbed (fields : List String) : String := "\t".intercalate fields

/-- The heading of a listing. -/
def listingHead : String := tabbed ["[groups]", "<repr(lexeme)>", "<actions>"]

/-- A lexeme in a listing: its form, its text in quotes, and its commands. -/
def listingLine (lexeme : Lexeme) (commands : List Command) : String :=
  let names := if commands.isEmpty then "-" else " ".intercalate (commands.map Command.name)
  tabbed [lexeme.form.name, quote (String.ofList lexeme.text), names]

/-- Lists lexemes, until one has no commands that can be read. -/
def listLexemes : List Lexeme → List Emission × Option Fault
  | [] => ([], none)
  | lexeme :: lexemes =>
    match lexeme.commands with
    | .error fault => ([], some fault)
    | .ok commands =>
      let more := listLexemes lexemes
      (.out (listingLine lexeme commands) :: more.1, more.2)

/-- Lists the lexemes of lines, until one of them ends the listing. -/
def listLines : List String → List Emission × Option Fault
  | [] => ([], none)
  | line :: lines =>
    let (lexemes, rest) := Lexeme.scan line.toList
    let listed := listLexemes lexemes
    match listed.2.or (Lexeme.unlexedFault? rest) with
    | some fault => (listed.1, some fault)
    | none =>
      let more := listLines lines
      (listed.1 ++ more.1, more.2)

/-- The listing of lines under its heading. -/
def listing (lines : List String) : List Emission × Option Fault :=
  let listed := listLines lines
  (.out listingHead :: listed.1, listed.2)

end Keypad.Console
