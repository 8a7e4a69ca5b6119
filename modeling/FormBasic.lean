import FormBasic.Calendar
import FormBasic.Calendar.Format
import FormBasic.Calendar.Reader
import FormBasic.CommandLine
import FormBasic.CommandLine.Input
import FormBasic.CommandLine.Options
import FormBasic.Config
import FormBasic.Config.Reader
import FormBasic.Data.Address
import FormBasic.Data.Cell
import FormBasic.Data.Connection
import FormBasic.Data.Service
import FormBasic.Data.Url
import FormBasic.Decimal.Binary
import FormBasic.Decimal.Notation
import FormBasic.Decimal.Reader
import FormBasic.Decimal.Shortest
import FormBasic.Duration
import FormBasic.Effect
import FormBasic.Elementary
import FormBasic.Environment
import FormBasic.Error
import FormBasic.Evaluator
import FormBasic.Files
import FormBasic.Heap
import FormBasic.Host.Form
import FormBasic.Host.Poller
import FormBasic.Host.Terminal
import FormBasic.Library.Dates
import FormBasic.Library.Function
import FormBasic.Library.Method
import FormBasic.Library.Number
import FormBasic.Library.Text
import FormBasic.Machine.Binding
import FormBasic.Machine.Builtin
import FormBasic.Machine.Call
import FormBasic.Machine.Classes
import FormBasic.Machine.Console
import FormBasic.Machine.Event
import FormBasic.Machine.Exchange
import FormBasic.Machine.Expression
import FormBasic.Machine.Host
import FormBasic.Machine.Instance
import FormBasic.Machine.Load
import FormBasic.Machine.Names
import FormBasic.Machine.Run
import FormBasic.Machine.State
import FormBasic.Machine.Statement
import FormBasic.Main
import FormBasic.Operation
import FormBasic.Palette
import FormBasic.Pattern
import FormBasic.Power
import FormBasic.Proofs.Arithmetic
import FormBasic.Proofs.Arrays
import FormBasic.Proofs.Coercion
import FormBasic.Proofs.Data.Connection
import FormBasic.Proofs.Decimal.DoubleValue
import FormBasic.Proofs.Decimal.FloatPattern
import FormBasic.Proofs.Decimal.Overflow
import FormBasic.Proofs.Decimal.Reading
import FormBasic.Proofs.Decimal.Rounding
import FormBasic.Proofs.Decimal.WholeNumber
import FormBasic.Proofs.Environment
import FormBasic.Proofs.Environment.Operations
import FormBasic.Proofs.Environment.View
import FormBasic.Proofs.Equality
import FormBasic.Proofs.Heap
import FormBasic.Proofs.Host.FormSession
import FormBasic.Proofs.Host.Poller
import FormBasic.Proofs.Host.Terminal
import FormBasic.Proofs.Inheritance
import FormBasic.Proofs.Library
import FormBasic.Proofs.Library.LeadingNumber
import FormBasic.Proofs.Library.Placeholder
import FormBasic.Proofs.Library.Text
import FormBasic.Proofs.Library.Thousands
import FormBasic.Proofs.Machine.Abandonment
import FormBasic.Proofs.Machine.ArrayAccess
import FormBasic.Proofs.Machine.Asking
import FormBasic.Proofs.Machine.Assignment
import FormBasic.Proofs.Machine.BaseCalls
import FormBasic.Proofs.Machine.BindingSource
import FormBasic.Proofs.Machine.CallerBindings
import FormBasic.Proofs.Machine.ContextBalance
import FormBasic.Proofs.Machine.Conversation
import FormBasic.Proofs.Machine.Declaration
import FormBasic.Proofs.Machine.DeclaredTypes
import FormBasic.Proofs.Machine.Domain
import FormBasic.Proofs.Machine.EffectQueue
import FormBasic.Proofs.Machine.Ends
import FormBasic.Proofs.Machine.Enumeration
import FormBasic.Proofs.Machine.ErrorOrigin
import FormBasic.Proofs.Machine.Evaluation
import FormBasic.Proofs.Machine.EventHandlers
import FormBasic.Proofs.Machine.Exchange
import FormBasic.Proofs.Machine.Execution
import FormBasic.Proofs.Machine.FailurePropagation
import FormBasic.Proofs.Machine.ForLoop
import FormBasic.Proofs.Machine.GlobalConstants
import FormBasic.Proofs.Machine.HostProperty
import FormBasic.Proofs.Machine.Import
import FormBasic.Proofs.Machine.Items
import FormBasic.Proofs.Machine.MemberAccess
import FormBasic.Proofs.Machine.Mirroring
import FormBasic.Proofs.Machine.Nesting
import FormBasic.Proofs.Machine.Place
import FormBasic.Proofs.Machine.ProperEvaluation
import FormBasic.Proofs.Machine.ProperExecution
import FormBasic.Proofs.Machine.ProperRuns
import FormBasic.Proofs.Machine.ProperSession
import FormBasic.Proofs.Machine.ProperState
import FormBasic.Proofs.Machine.PureEvaluation
import FormBasic.Proofs.Machine.Quiet
import FormBasic.Proofs.Machine.RaisedEvents
import FormBasic.Proofs.Machine.RunRelation
import FormBasic.Proofs.Machine.Session
import FormBasic.Proofs.Machine.Signals
import FormBasic.Proofs.Machine.StateCondition
import FormBasic.Proofs.Machine.Tandem
import FormBasic.Proofs.Machine.Termination
import FormBasic.Proofs.Machine.TryOutcome
import FormBasic.Proofs.Machine.Watch
import FormBasic.Proofs.Machine.WriteBack
import FormBasic.Proofs.Palette
import FormBasic.Proofs.Pattern
import FormBasic.Proofs.Range
import FormBasic.Proofs.Scope
import FormBasic.Proofs.Source
import FormBasic.Proofs.Syntax.Literal
import FormBasic.Proofs.Syntax.Root
import FormBasic.Proofs.Text.Blank
import FormBasic.Proofs.Text.Case
import FormBasic.Proofs.Text.Search
import FormBasic.Proofs.Tree.Number
import FormBasic.Scope
import FormBasic.Source
import FormBasic.Syntax.Decl
import FormBasic.Syntax.Decoder
import FormBasic.Syntax.Expr
import FormBasic.Syntax.Operator
import FormBasic.Syntax.Printer
import FormBasic.Syntax.Stmt
import FormBasic.Table
import FormBasic.Text.Blank
import FormBasic.Text.Bytes
import FormBasic.Text.Case
import FormBasic.Text.CaseTable
import FormBasic.Text.Printable
import FormBasic.Text.Quoted
import FormBasic.Text.Search
import FormBasic.Toml
import FormBasic.Toml.Reader
import FormBasic.Tree
import FormBasic.Tree.Json
import FormBasic.Tree.Yaml
import FormBasic.Tree.Yaml.Cursor
import FormBasic.Tree.Yaml.Node
import FormBasic.Tree.Yaml.Scalar
import FormBasic.Tree.Yaml.Token
import FormBasic.Value
import FormBasic.Value.Arrays
import FormBasic.Value.Coerce
import FormBasic.Value.Compare
import FormBasic.Value.Convert
