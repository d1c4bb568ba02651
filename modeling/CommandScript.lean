import CommandScript.Decimal.Dyadic
import CommandScript.Decimal.Layout
import CommandScript.Decimal.Numeral
import CommandScript.Decimal.Shortest
import CommandScript.Evaluation.Builtin
import CommandScript.Evaluation.Evaluator
import CommandScript.Evaluation.Form
import CommandScript.Evaluation.Run
import CommandScript.Host.Reading
import CommandScript.Host.Session
import CommandScript.Host.Toolkit
import CommandScript.Loader.Basic
import CommandScript.Loader.FilePath
import CommandScript.Loader.FileTree
import CommandScript.Loader.LoadError
import CommandScript.Machine.Basic
import CommandScript.Machine.EvalError
import CommandScript.Machine.Scope
import CommandScript.Machine.Value
import CommandScript.Mailbox.Actor
import CommandScript.Mailbox.Basic
import CommandScript.Mailbox.ChannelName
import CommandScript.Mailbox.Policy
import CommandScript.Mailbox.Signals
import CommandScript.Mailbox.World
import CommandScript.Proofs.Decimal.Arithmetic
import CommandScript.Proofs.Decimal.Exactness
import CommandScript.Proofs.Decimal.Nearest
import CommandScript.Proofs.Decimal.Packing
import CommandScript.Proofs.Decimal.Range
import CommandScript.Proofs.Decimal.Rounding
import CommandScript.Proofs.Decimal.Shape
import CommandScript.Proofs.Decimal.Spelling
import CommandScript.Proofs.Evaluation.Comparison
import CommandScript.Proofs.Evaluation.Completion
import CommandScript.Proofs.Evaluation.Counting
import CommandScript.Proofs.Evaluation.Discipline
import CommandScript.Proofs.Evaluation.Footing
import CommandScript.Proofs.Evaluation.Ground
import CommandScript.Proofs.Evaluation.Matching
import CommandScript.Proofs.Evaluation.ModuleHistory
import CommandScript.Proofs.Evaluation.ModuleTable
import CommandScript.Proofs.Evaluation.Nesting
import CommandScript.Proofs.Evaluation.Noninterference
import CommandScript.Proofs.Evaluation.Recording
import CommandScript.Proofs.Evaluation.Rejection
import CommandScript.Proofs.Evaluation.Rooting
import CommandScript.Proofs.Evaluation.ScopeFrame
import CommandScript.Proofs.Evaluation.SecondCheck
import CommandScript.Proofs.Evaluation.Services
import CommandScript.Proofs.Evaluation.Shape
import CommandScript.Proofs.Evaluation.Termination
import CommandScript.Proofs.Evaluation.Watch
import CommandScript.Proofs.Host.Ownership
import CommandScript.Proofs.Host.Rejection
import CommandScript.Proofs.Host.Rooting
import CommandScript.Proofs.Host.Supply
import CommandScript.Proofs.Host.Termination
import CommandScript.Proofs.Loader.Confinement
import CommandScript.Proofs.Machine.Agreement
import CommandScript.Proofs.Machine.Functionless
import CommandScript.Proofs.Machine.Ground
import CommandScript.Proofs.Machine.Growth
import CommandScript.Proofs.Machine.Lineage
import CommandScript.Proofs.Machine.Reachability
import CommandScript.Proofs.Machine.Rooting
import CommandScript.Proofs.Machine.ScopeFrame
import CommandScript.Proofs.Machine.Sealing
import CommandScript.Proofs.Machine.Soundness
import CommandScript.Proofs.Mailbox.Bookkeeping
import CommandScript.Proofs.Mailbox.Books
import CommandScript.Proofs.Mailbox.Closing
import CommandScript.Proofs.Mailbox.Confluence
import CommandScript.Proofs.Mailbox.Conservation
import CommandScript.Proofs.Mailbox.Erasure
import CommandScript.Proofs.Mailbox.Failures
import CommandScript.Proofs.Mailbox.Filling
import CommandScript.Proofs.Mailbox.Interleaving
import CommandScript.Proofs.Mailbox.Likeness
import CommandScript.Proofs.Mailbox.Overflow
import CommandScript.Proofs.Mailbox.Settling
import CommandScript.Proofs.Mailbox.Shutdown
import CommandScript.Proofs.Mailbox.Slots
import CommandScript.Proofs.Mailbox.Turns
import CommandScript.Proofs.Mailbox.Withdrawal
import CommandScript.Proofs.Sequence.Canonical
import CommandScript.Proofs.Sequence.Packed
import CommandScript.Proofs.Sequence.Pages
import CommandScript.Proofs.Sequence.Programs
import CommandScript.Proofs.Sequence.Reading
import CommandScript.Proofs.Sequence.Shape
import CommandScript.Proofs.Sequence.Tree
import CommandScript.Proofs.Settings.LastWins
import CommandScript.Proofs.Settings.Line
import CommandScript.Proofs.Source.Acceptance
import CommandScript.Proofs.Source.Advance
import CommandScript.Proofs.Source.Completion
import CommandScript.Proofs.Source.Effort
import CommandScript.Proofs.Source.Grafting
import CommandScript.Proofs.Source.Grammar
import CommandScript.Proofs.Source.Progress
import CommandScript.Proofs.Source.ReadBack
import CommandScript.Proofs.Source.Recognition
import CommandScript.Proofs.Source.Reformatting
import CommandScript.Proofs.Source.Steps
import CommandScript.Proofs.Source.Sufficiency
import CommandScript.Proofs.Source.Words
import CommandScript.Proofs.Source.Wrapping
import CommandScript.Proofs.Source.Written
import CommandScript.Proofs.Text.Line
import CommandScript.Sequence.Basic
import CommandScript.Sequence.Iterator
import CommandScript.Sequence.Node
import CommandScript.Settings.Basic
import CommandScript.Settings.Text
import CommandScript.Source.Cursor
import CommandScript.Source.Inspect
import CommandScript.Source.Layout
import CommandScript.Source.Parse
import CommandScript.Source.ParseError
import CommandScript.Source.Tree
import CommandScript.Symbol
import CommandScript.Text.Blank
import CommandScript.Text.CasedLetter
import CommandScript.Text.CodePoints
import CommandScript.Text.Line
import CommandScript.Text.Quoted
import CommandScript.Text.Unprintable
