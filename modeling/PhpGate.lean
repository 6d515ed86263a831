import PhpGate.Command.Options
import PhpGate.Command.Run
import PhpGate.Diagnostic
import PhpGate.Digest.Sha256
import PhpGate.Discovery
import PhpGate.Evaluation
import PhpGate.Files.Change
import PhpGate.Files.Path
import PhpGate.Files.Store
import PhpGate.Grammar.Compile
import PhpGate.Grammar.Machine
import PhpGate.Interpreter.Check
import PhpGate.Interpreter.LintOutput
import PhpGate.Interpreter.Log
import PhpGate.Json.Basic
import PhpGate.Json.Reading
import PhpGate.Json.Writing
import PhpGate.Log
import PhpGate.Main
import PhpGate.Number.Binary64
import PhpGate.Number.Reading
import PhpGate.Number.Writing
import PhpGate.Proofs.Command.Verdict
import PhpGate.Proofs.Discovery
import PhpGate.Proofs.Evaluation.Answered
import PhpGate.Proofs.Evaluation.Confirmed
import PhpGate.Proofs.Evaluation.LineEnding
import PhpGate.Proofs.Evaluation.LineNumber
import PhpGate.Proofs.Evaluation.OneLine
import PhpGate.Proofs.Evaluation.Stages
import PhpGate.Proofs.Files.Change
import PhpGate.Proofs.Files.Directories
import PhpGate.Proofs.Files.Store
import PhpGate.Proofs.Files.Tree
import PhpGate.Proofs.Grammar.Acceptance
import PhpGate.Proofs.Grammar.Derivation
import PhpGate.Proofs.Grammar.Nesting
import PhpGate.Proofs.Grammar.Shape
import PhpGate.Proofs.Grammar.Stack
import PhpGate.Proofs.Grammar.Variable
import PhpGate.Proofs.Grammar.Viable
import PhpGate.Proofs.Interpreter.Answer
import PhpGate.Proofs.Interpreter.Dependence
import PhpGate.Proofs.Interpreter.LintOutput
import PhpGate.Proofs.Interpreter.OneLine
import PhpGate.Proofs.Interpreter.Order
import PhpGate.Proofs.Interpreter.Outline
import PhpGate.Proofs.Interpreter.Phrase
import PhpGate.Proofs.Interpreter.Place
import PhpGate.Proofs.Interpreter.Runs
import PhpGate.Proofs.Interpreter.Sentence
import PhpGate.Proofs.Interpreter.TemporaryFile
import PhpGate.Proofs.Json.Escape
import PhpGate.Proofs.Json.Members
import PhpGate.Proofs.Json.Reading
import PhpGate.Proofs.Json.Same
import PhpGate.Proofs.Json.Spelling
import PhpGate.Proofs.Number.NotANumber
import PhpGate.Proofs.Number.Overflow
import PhpGate.Proofs.Number.Written
import PhpGate.Proofs.Outcome
import PhpGate.Proofs.Reporting.Account
import PhpGate.Proofs.Reporting.History
import PhpGate.Proofs.Reporting.Loudness
import PhpGate.Proofs.SelfCheck.Line
import PhpGate.Proofs.SelfCheck.LineEnding
import PhpGate.Proofs.SelfCheck.Neutral
import PhpGate.Proofs.SelfCheck.Placement
import PhpGate.Proofs.SelfCheck.Verdict
import PhpGate.Proofs.SelfCheck.Wrapper
import PhpGate.Proofs.Settings.Escape
import PhpGate.Proofs.Settings.Layers
import PhpGate.Proofs.Settings.Load
import PhpGate.Proofs.Settings.Usable
import PhpGate.Proofs.Source.Alignment
import PhpGate.Proofs.Source.Blanking
import PhpGate.Proofs.Source.Declaration
import PhpGate.Proofs.Source.FinalTag
import PhpGate.Proofs.Source.LineEnding
import PhpGate.Proofs.Source.Numbered
import PhpGate.Proofs.Source.Path
import PhpGate.Proofs.Source.Rejection
import PhpGate.Proofs.Source.Rewriting
import PhpGate.Proofs.Source.Separation
import PhpGate.Proofs.Source.Stripped
import PhpGate.Proofs.Source.Stripping
import PhpGate.Proofs.Source.Touching
import PhpGate.Proofs.Source.Trailing
import PhpGate.Proofs.Text.Digit
import PhpGate.Proofs.Text.Letter
import PhpGate.Proofs.Text.LineEnding
import PhpGate.Proofs.Text.LineNumber
import PhpGate.Proofs.Text.Lines
import PhpGate.Proofs.Text.OneLine
import PhpGate.Proofs.Text.Pieces
import PhpGate.Proofs.Text.SamePieces
import PhpGate.Proofs.Text.Segment
import PhpGate.Proofs.Token.Blank
import PhpGate.Proofs.Token.Break
import PhpGate.Proofs.Token.Closing
import PhpGate.Proofs.Token.Comment
import PhpGate.Proofs.Token.Content
import PhpGate.Proofs.Token.Context
import PhpGate.Proofs.Token.Ending
import PhpGate.Proofs.Token.Equations
import PhpGate.Proofs.Token.Extent
import PhpGate.Proofs.Token.Heredoc
import PhpGate.Proofs.Token.Identifier
import PhpGate.Proofs.Token.Insertion
import PhpGate.Proofs.Token.Joining
import PhpGate.Proofs.Token.Keyword
import PhpGate.Proofs.Token.LineEnding
import PhpGate.Proofs.Token.Member
import PhpGate.Proofs.Token.Multiline
import PhpGate.Proofs.Token.Naming
import PhpGate.Proofs.Token.Neighbour
import PhpGate.Proofs.Token.Numeral
import PhpGate.Proofs.Token.Partition
import PhpGate.Proofs.Token.Place
import PhpGate.Proofs.Token.Report
import PhpGate.Proofs.Token.SameTokens
import PhpGate.Proofs.Token.Scan
import PhpGate.Proofs.Token.Start
import PhpGate.Proofs.Token.Stop
import PhpGate.Proofs.Token.Tail
import PhpGate.Proofs.Validation.Complaint
import PhpGate.Proofs.Validation.ContentHash
import PhpGate.Proofs.Validation.Entries
import PhpGate.Proofs.Validation.Settling
import PhpGate.Proofs.Validation.Step
import PhpGate.Proofs.Validation.Totals
import PhpGate.Proofs.Validation.Writing
import PhpGate.Proofs.Value.Shown
import PhpGate.Reporting
import PhpGate.SelfCheck
import PhpGate.Settings.Basic
import PhpGate.Settings.Load
import PhpGate.Source.Declaration
import PhpGate.Source.Filter
import PhpGate.Text.Basic
import PhpGate.Text.Case
import PhpGate.Text.Codes
import PhpGate.Text.Digit
import PhpGate.Text.Glob
import PhpGate.Text.Pieces
import PhpGate.Text.Printable
import PhpGate.Text.Quoted
import PhpGate.Text.Utf8
import PhpGate.Text.Word
import PhpGate.Token.Basic
import PhpGate.Token.Lexer
import PhpGate.Token.Pattern
import PhpGate.Token.Report
import PhpGate.Validation.Index
import PhpGate.Validation.Result
import PhpGate.Validation.State
import PhpGate.Value.Basic
import PhpGate.Value.Calendar
import PhpGate.Yaml.Cursor
import PhpGate.Yaml.Document
import PhpGate.Yaml.Merge
import PhpGate.Yaml.Node
import PhpGate.Yaml.Scalar
import PhpGate.Yaml.ScalarValue
import PhpGate.Yaml.Token
import PhpGate.Yaml.TypeTag
import PhpGate.Yaml.Value
