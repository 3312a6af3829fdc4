import Calculator.Bracket
import Calculator.Calculation
import Calculator.Command
import Calculator.Command.Arguments
import Calculator.Command.Batch
import Calculator.Command.Usage
import Calculator.Decimal.Binary
import Calculator.Decimal.Layout
import Calculator.Decimal.Reader
import Calculator.Decimal.Shortest
import Calculator.Evaluation
import Calculator.Fault
import Calculator.Journal.Event
import Calculator.Journal.Level
import Calculator.Journal.Transcript
import Calculator.Json
import Calculator.Json.Document
import Calculator.Json.Number
import Calculator.Main
import Calculator.Operator
import Calculator.Rendering
import Calculator.Report
import Calculator.Session
import Calculator.Settings
import Calculator.Settings.Reader
import Calculator.Stack
import Calculator.Text.Blank
import Calculator.Text.Hidden
import Calculator.Text.Quoted
import Calculator.Text.Terminal
import Calculator.Token
import Calculator.Token.Scanner
import Calculator.Yard
import Calculator.Proofs.Basic
import Calculator.Proofs.Tree
import Calculator.Proofs.Value
import Calculator.Proofs.Grammar
import Calculator.Proofs.Postorder
import Calculator.Proofs.Matching
import Calculator.Proofs.Numeral
import Calculator.Proofs.Spelling
import Calculator.Proofs.Calculation
import Calculator.Proofs.Wellformed
import Calculator.Proofs.Conservation
import Calculator.Proofs.Acceptance
import Calculator.Proofs.Lexeme
import Calculator.Proofs.Meaning
import Calculator.Proofs.Segmentation
import Calculator.Proofs.Readable
import Calculator.Proofs.Faults
import Calculator.Proofs.Groups
import Calculator.Proofs.Origins
import Calculator.Proofs.Placement
import Calculator.Proofs.Substitution
import Calculator.Proofs.Rereading
import Calculator.Proofs.Families
import Calculator.Proofs.Lines
import Calculator.Proofs.Batch
import Calculator.Proofs.Neighbours
import Calculator.Proofs.Arguments
import Calculator.Proofs.Invocation
import Calculator.Proofs.Heights
import Calculator.Proofs.Capacity
import Calculator.Proofs.Quotation
import Calculator.Proofs.Literal
import Calculator.Proofs.Documents
import Calculator.Proofs.Rounding
import Calculator.Proofs.Shortest
import Calculator.Proofs.Amounts
import Calculator.Proofs.Rendered
import Calculator.Proofs.Records
import Calculator.Proofs.Settings
import Calculator.Proofs.Spacing
import Calculator.Proofs.FirstUse
import Calculator.Proofs.Ranks
import Calculator.Proofs.Depth
import Calculator.Proofs.TokenStack
import Calculator.Proofs.Representation
import Calculator.Proofs.Messages
import Calculator.Proofs.Accounts
import Calculator.Proofs.Legibility
import Calculator.Proofs.Transcript
