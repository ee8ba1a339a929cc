import PrefixLogic.CommandLine
import PrefixLogic.CommandLine.Arguments
import PrefixLogic.CommandLine.Disk
import PrefixLogic.CommandLine.Fault
import PrefixLogic.CommandLine.Path
import PrefixLogic.CommandLine.Settings
import PrefixLogic.Environment
import PrefixLogic.Environment.Scope
import PrefixLogic.Environment.Store
import PrefixLogic.Evaluation
import PrefixLogic.Evaluation.EvalError
import PrefixLogic.Evaluation.Place
import PrefixLogic.Evaluation.Trace
import PrefixLogic.Expr
import PrefixLogic.Expr.ParseError
import PrefixLogic.Expr.Reader
import PrefixLogic.Failure
import PrefixLogic.Main
import PrefixLogic.Operator
import PrefixLogic.Program
import PrefixLogic.Room
import PrefixLogic.Proofs.Reading.Reader
import PrefixLogic.Session
import PrefixLogic.Session.Shared
import PrefixLogic.Shell
import PrefixLogic.Shell.Line
import PrefixLogic.Text.Blank
import PrefixLogic.Text.CodeRanges
import PrefixLogic.Text.DecimalDigit
import PrefixLogic.Text.Integer
import PrefixLogic.Text.Lines
import PrefixLogic.Text.Printable
import PrefixLogic.Text.Quoted
import PrefixLogic.Token
import PrefixLogic.Token.Lexeme
import PrefixLogic.Value
import PrefixLogic.Proofs.Reading.RoundTrip
import PrefixLogic.Proofs.Evaluation.Frame
import PrefixLogic.Proofs.Environment.Flattening
import PrefixLogic.Proofs.Evaluation.Flat
import PrefixLogic.Proofs.Environment.Visible
import PrefixLogic.Proofs.Evaluation.Correspondence
import PrefixLogic.Proofs.Evaluation.Nesting
import PrefixLogic.Proofs.Evaluation.CallDepth
import PrefixLogic.Proofs.Evaluation.Footprint
import PrefixLogic.Proofs.Session.ReadBack
import PrefixLogic.Proofs.Session.Room
import PrefixLogic.Proofs.Reading.Viability
import PrefixLogic.Proofs.Token.Spacing
import PrefixLogic.Proofs.Session.Verbosity
import PrefixLogic.Proofs.Shell.Course
import PrefixLogic.Proofs.Shell.Line
import PrefixLogic.Proofs.Session.Source
import PrefixLogic.Proofs.Shell.Command
import PrefixLogic.Proofs.Text.Lines
import PrefixLogic.Proofs.Program.Course
import PrefixLogic.Proofs.Program.Typed
import PrefixLogic.Proofs.CommandLine.Writing
import PrefixLogic.Proofs.CommandLine.Verbosity
import PrefixLogic.Proofs.Token.Concatenation
import PrefixLogic.Proofs.Evaluation.Provenance
import PrefixLogic.Proofs.Evaluation.BooleanLaws
import PrefixLogic.Proofs.Evaluation.Independence
import PrefixLogic.Proofs.Environment.Outward
import PrefixLogic.Proofs.Text.LineEnds
import PrefixLogic.Proofs.CommandLine.LineEnds
import PrefixLogic.Proofs.Session.OneLine
import PrefixLogic.Proofs.Program.Composition
import PrefixLogic.Proofs.Evaluation.ActiveCalls
import PrefixLogic.Proofs.Session.Memory
import PrefixLogic.Proofs.CommandLine.Sink
import PrefixLogic.Proofs.CommandLine.Refusal
import PrefixLogic.Proofs.Environment.History
import PrefixLogic.Proofs.Shell.OneLineEach
import PrefixLogic.Proofs.Shell.Bindings
import PrefixLogic.Proofs.Reading.Descent
import PrefixLogic.Proofs.Reading.Excess
