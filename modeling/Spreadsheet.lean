import Spreadsheet.Text.Space
import Spreadsheet.Text.Digit
import Spreadsheet.Text.Capital
import Spreadsheet.Text.Quoted
import Spreadsheet.Text.Shown
import Spreadsheet.Number.Power
import Spreadsheet.Number.Double
import Spreadsheet.Number.Shortest
import Spreadsheet.Number
import Spreadsheet.Number.Printed
import Spreadsheet.Number.Numeral
import Spreadsheet.Number.Exact
import Spreadsheet.Calendar.Printed
import Spreadsheet.Calendar.Iso
import Spreadsheet.Reference.Shift
import Spreadsheet.Formula.Lexer
import Spreadsheet.Content
import Spreadsheet.Formula.Parser
import Spreadsheet.Evaluation
import Spreadsheet.Json.Writer
import Spreadsheet.Json.Reader
import Spreadsheet.Storage
import Spreadsheet.Cell
import Spreadsheet.Worksheet
import Spreadsheet.Session
import Spreadsheet.Proofs.Evaluation.BigStep
import Spreadsheet.Proofs.Formula.Completeness
import Spreadsheet.Proofs.Formula.Cutting
import Spreadsheet.Proofs.Formula.Exponents
import Spreadsheet.Proofs.Formula.MovedText
import Spreadsheet.Proofs.Formula.Shifting
import Spreadsheet.Proofs.Evaluation.Relocation
import Spreadsheet.Proofs.Evaluation.Arguments
import Spreadsheet.Proofs.Evaluation.Inlining
import Spreadsheet.Proofs.Evaluation.Depth
import Spreadsheet.Proofs.Formula.Spacing
import Spreadsheet.Proofs.Number.Literals
import Spreadsheet.Proofs.Evaluation.Integers
import Spreadsheet.Proofs.Json.Numbers
import Spreadsheet.Proofs.Json.Texts
import Spreadsheet.Proofs.Json.RoundTrip
import Spreadsheet.Proofs.Storage.RoundTrip
import Spreadsheet.Proofs.Evaluation.Outcomes
import Spreadsheet.Proofs.Evaluation.Reach
import Spreadsheet.Proofs.Formula.Joining
import Spreadsheet.Proofs.Reference.Composition
import Spreadsheet.Proofs.Evaluation.Cycles
import Spreadsheet.Proofs.Worksheet.ReadBack
import Spreadsheet.Proofs.Formula.Nodes
import Spreadsheet.Proofs.Reference.Destination
import Spreadsheet.Proofs.Formula.Strings
import Spreadsheet.Proofs.Formula.Written
import Spreadsheet.Proofs.Number.Running
import Spreadsheet.Proofs.Evaluation.Chains
import Spreadsheet.Proofs.Evaluation.Quotients
import Spreadsheet.Proofs.Storage.Conversion
import Spreadsheet.Proofs.Evaluation.Aggregates
import Spreadsheet.Proofs.Evaluation.Comparisons
import Spreadsheet.Proofs.Formula.Quoting
import Spreadsheet.Proofs.Number.ReadBack
import Spreadsheet.Proofs.Formula.LoneTokens
import Spreadsheet.Proofs.Formula.Numerals
import Spreadsheet.Proofs.Evaluation.LoneTokens
import Spreadsheet.Proofs.Reference.Outcomes
import Spreadsheet.Proofs.Reference.Labels
import Spreadsheet.Evaluation.Run
import Spreadsheet.Proofs.Evaluation.Values
import Spreadsheet.Proofs.Formula.Refusal
import Spreadsheet.Proofs.Session.Copying
