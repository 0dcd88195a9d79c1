import Roteiro.Cli.Arguments
import Roteiro.Cli.Run
import Roteiro.Debug.Console
import Roteiro.Debug.Dialogue
import Roteiro.Debug.Stepping
import Roteiro.Decimal.Binary
import Roteiro.Decimal.Layout
import Roteiro.Decimal.Read
import Roteiro.Decimal.Remainder
import Roteiro.Decimal.Shortest
import Roteiro.Eval.Evaluate
import Roteiro.Eval.Monad
import Roteiro.Eval.Observer
import Roteiro.Eval.Parts
import Roteiro.Eval.Session
import Roteiro.Eval.Trace
import Roteiro.Main
import Roteiro.Parser.Error
import Roteiro.Parser.Grammar
import Roteiro.Parser.Monad
import Roteiro.Parser.Source
import Roteiro.Report
import Roteiro.Scope.Chain
import Roteiro.Scope.Context
import Roteiro.Source.Lines
import Roteiro.Source.Span
import Roteiro.Source.WordSpan
import Roteiro.Text.Alphabetic
import Roteiro.Text.Blank
import Roteiro.Text.Dump
import Roteiro.Text.Numeric
import Roteiro.Text.Printable
import Roteiro.Text.Quoted
import Roteiro.Text.Ranges
import Roteiro.Token.Basic
import Roteiro.Token.Kind
import Roteiro.Token.Lexer
import Roteiro.Tree.Basic
import Roteiro.Tree.Dump
import Roteiro.Tree.Printer
import Roteiro.Value.Basic
import Roteiro.Value.Dictionary
import Roteiro.Value.Error
import Roteiro.Value.Heap
import Roteiro.Value.Items
import Roteiro.Value.Iteration
import Roteiro.Value.Key
import Roteiro.Value.Ledger
import Roteiro.Value.Operators
import Roteiro.Value.Printer
import Roteiro.World.Basic
import Roteiro.World.Library
import Roteiro.World.Property
import Roteiro.World.Terminal
import Roteiro.Proofs.Eval.Nesting
import Roteiro.Proofs.Eval.Congruence
import Roteiro.Proofs.Eval.Fuel
import Roteiro.Proofs.Eval.Observation
import Roteiro.Proofs.Eval.Balance
import Roteiro.Proofs.Flow.Signals
import Roteiro.Proofs.Flow.Following
import Roteiro.Proofs.Flow.Placement
import Roteiro.Proofs.Flow.Agreement
import Roteiro.Proofs.Flow.Soundness
import Roteiro.Proofs.Value.Dictionary
import Roteiro.Proofs.Source.Lines
import Roteiro.Proofs.Token.Scan
import Roteiro.Proofs.Token.Tiling
import Roteiro.Proofs.Token.Machine
import Roteiro.Proofs.Parser.Derivation
import Roteiro.Proofs.Parser.Soundness
import Roteiro.Proofs.Decimal.Plain
import Roteiro.Proofs.Token.Spelling
import Roteiro.Proofs.Tree.Bare
import Roteiro.Proofs.Tree.Writable
import Roteiro.Proofs.Parser.Printed
import Roteiro.Proofs.Debug.Playback
import Roteiro.Proofs.Debug.Protocol
import Roteiro.Proofs.Debug.Safety
import Roteiro.Proofs.Trace.Chronicle
import Roteiro.Proofs.Trace.Unwinding
import Roteiro.Proofs.Trace.Brackets
import Roteiro.Proofs.Trace.Tasks
import Roteiro.Proofs.Trace.Narration
import Roteiro.Proofs.Trace.Coherence
import Roteiro.Proofs.Flow.Misplacing
import Roteiro.Proofs.Scope.Captures
import Roteiro.Proofs.Debug.Quitting
import Roteiro.Proofs.Debug.Stacks
import Roteiro.Proofs.World.Tidy
import Roteiro.Proofs.World.Traversal
import Roteiro.Proofs.Trace.Steady
import Roteiro.Proofs.Trace.Settling
import Roteiro.Proofs.Debug.Stopping
import Roteiro.Proofs.Debug.Alike
import Roteiro.Proofs.Debug.Conversation
import Roteiro.Proofs.Debug.Console
import Roteiro.Proofs.Parser.Layout
import Roteiro.Proofs.Value.Bare
import Roteiro.Proofs.World.Bare
import Roteiro.Proofs.World.Closures
import Roteiro.Proofs.Eval.Layout
import Roteiro.Proofs.Scope.Operations
import Roteiro.Proofs.Token.Longest
import Roteiro.Proofs.Token.Spaced
import Roteiro.Proofs.Parser.Progress
import Roteiro.Proofs.Parser.Congruence
import Roteiro.Proofs.Parser.Returns
import Roteiro.Proofs.Tree.Parts
import Roteiro.Proofs.Parser.Spans
import Roteiro.Proofs.World.Functions
import Roteiro.Proofs.Eval.Pointing
import Roteiro.Proofs.Eval.Locations
import Roteiro.Proofs.Value.Edits
import Roteiro.Proofs.World.Stamps
import Roteiro.Proofs.Scope.Resolution
import Roteiro.Proofs.Scope.Numbering
import Roteiro.Proofs.Scope.Laws
import Roteiro.Proofs.Scope.Handles
import Roteiro.Proofs.Value.Items
import Roteiro.Proofs.World.Arrays
import Roteiro.Proofs.Eval.Stepwise
import Roteiro.Proofs.Value.Drawing
import Roteiro.Proofs.Value.Display
import Roteiro.Proofs.Eval.Fallback
import Roteiro.Proofs.World.Standing
import Roteiro.Proofs.World.Faults
import Roteiro.Proofs.Eval.Faults
import Roteiro.Proofs.Eval.Unfailing
