import Keypad.Lexeme.KeyText
import Keypad.Main
import Keypad.Proofs.Console.ErrorState
import Keypad.Proofs.Console.InputLines
import Keypad.Proofs.Console.JoinedLines
import Keypad.Proofs.Console.KnownKeys
import Keypad.Proofs.Console.Passage
import Keypad.Proofs.Console.Refusal
import Keypad.Proofs.Console.StoreRecall
import Keypad.Proofs.Console.TidyBuffer
import Keypad.Proofs.Console.WrittenExpression
import Keypad.Proofs.Expression.Causes
import Keypad.Proofs.Expression.Conservation
import Keypad.Proofs.Expression.InfixForm
import Keypad.Proofs.Expression.OperandOrder
import Keypad.Proofs.Expression.Postfix
import Keypad.Proofs.Expression.UnmatchedMarks
import Keypad.Proofs.Lexeme.KeyLine
import Keypad.Proofs.Lexeme.MaximalMunch
import Keypad.Proofs.Machine.Bare
import Keypad.Proofs.Machine.CommittedRow
import Keypad.Proofs.Machine.Frame
import Keypad.Proofs.Machine.GivingUp
import Keypad.Proofs.Machine.Identity
import Keypad.Proofs.Machine.Legible
import Keypad.Proofs.Machine.Loading
import Keypad.Proofs.Machine.Log
import Keypad.Proofs.Machine.OperatorKeys
import Keypad.Proofs.Machine.SignKey
import Keypad.Proofs.Machine.TidyText
import Keypad.Proofs.Machine.TypedKeys
import Keypad.Proofs.Machine.Unnaming
import Keypad.Proofs.Number.DisplayReading
import Keypad.Proofs.Number.Grouping
import Keypad.Proofs.Number.ShortestDigits
import Keypad.Proofs.Number.WrittenValue
import Keypad.Proofs.Variables.LastSave
