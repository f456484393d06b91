import TypeSig.Text.Basic
import TypeSig.Text.Span
import TypeSig.Text.CodeRange
import TypeSig.Text.Blank
import TypeSig.Text.Extender
import TypeSig.Text.Printable
import TypeSig.Text.CellWidth
import TypeSig.Text.Quoted
import TypeSig.Text.Occurrence
import TypeSig.Text.Line
import TypeSig.Text.Similarity
import TypeSig.Text.Terminal
import TypeSig.Symbol
import TypeSig.Lexeme
import TypeSig.Piece
import TypeSig.Clause
import TypeSig.TypeDescriptor
import TypeSig.TypeTree
import TypeSig.Decimal.Shortest
import TypeSig.Decimal.Layout
import TypeSig.MacroOutput
import TypeSig.ParseError
import TypeSig.Constraint
import TypeSig.Stage
import TypeSig.Signature
import TypeSig.Registry
import TypeSig.Memo
import TypeSig.Layout.Block
import TypeSig.Layout.Json
import TypeSig.Layout.Listing
import TypeSig.Event
import TypeSig.Journal
import TypeSig.Parser
import TypeSig.Report
import TypeSig.CommandLine.Arguments
import TypeSig.CommandLine.Usage
import TypeSig.CommandLine.Run
import TypeSig.Main
import TypeSig.Proofs.Blanks
import TypeSig.Proofs.Scanning
import TypeSig.Proofs.Nesting
import TypeSig.Proofs.Joining
import TypeSig.Proofs.TypeToken
import TypeSig.Proofs.Outlines
import TypeSig.Proofs.RoundTrip
import TypeSig.Proofs.NestedGenerics
import TypeSig.Proofs.Memoization
import TypeSig.Proofs.MacroChains
import TypeSig.Proofs.ErrorSpan
import TypeSig.Proofs.ErrorRegion
import TypeSig.Proofs.Structure
import TypeSig.Proofs.OutputStage
import TypeSig.Proofs.TypeTexts
import TypeSig.Proofs.CacheEffects
import TypeSig.Proofs.MemoHistory
import TypeSig.Proofs.TypeMacros
import TypeSig.Proofs.Arguments
import TypeSig.Proofs.ExitCode
import TypeSig.Proofs.ClausePieces
import TypeSig.Proofs.Leniency
import TypeSig.Proofs.Splitting
import TypeSig.Proofs.ConstraintGrammar
import TypeSig.Proofs.StageBlocks
import TypeSig.Proofs.DescriptorForm
import TypeSig.Proofs.OptionalTypes
import TypeSig.Proofs.SubtypeBoundaries
import TypeSig.Proofs.Tiling
import TypeSig.Proofs.SubtypeDescent
import TypeSig.Proofs.TornEscapes
import TypeSig.Proofs.ClauseEnds
import TypeSig.Proofs.Unescaping
