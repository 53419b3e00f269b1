import AnalyzerGlue.Hash.Sip
import AnalyzerGlue.Expr.Parser
import AnalyzerGlue.Code.Printer
import AnalyzerGlue.Code.Deferral
import AnalyzerGlue.Evt.Conditional
import AnalyzerGlue.Evt.Chunk
import AnalyzerGlue.Json.Reader
import AnalyzerGlue.TypeTable
import AnalyzerGlue.Declaration.Store
import AnalyzerGlue.Evt.Load
import AnalyzerGlue.HostType
import AnalyzerGlue.Compiler
import AnalyzerGlue.Command.FileTree
import AnalyzerGlue.Command.Usage
import AnalyzerGlue.Main
import AnalyzerGlue.Proofs.Evt.Argument
import AnalyzerGlue.Proofs.Evt.Fidelity
import AnalyzerGlue.Proofs.Expr.RoundTrip
import AnalyzerGlue.Proofs.Evt.Relocation
import AnalyzerGlue.Proofs.Evt.Concatenation
import AnalyzerGlue.Proofs.Evt.Words
import AnalyzerGlue.Proofs.Evt.Taking
import AnalyzerGlue.Proofs.Evt.Returning
import AnalyzerGlue.Proofs.Evt.Canonical
import AnalyzerGlue.Proofs.Evt.Reprinting
import AnalyzerGlue.Proofs.Compiler.Exports
import AnalyzerGlue.Proofs.Compiler.Hooks
import AnalyzerGlue.Proofs.Compiler.Acceptance
import AnalyzerGlue.Proofs.Compiler.Contents
import AnalyzerGlue.Proofs.Evt.Covering
import AnalyzerGlue.Proofs.Evt.Remainder
import AnalyzerGlue.Proofs.Compiler.Settling
import AnalyzerGlue.Proofs.Compiler.Repetition
import AnalyzerGlue.Proofs.Compiler.Debugging
import AnalyzerGlue.Proofs.Compiler.ExportSet
import AnalyzerGlue.Proofs.HostType.Unfolding
import AnalyzerGlue.Proofs.HostType.Projector
import AnalyzerGlue.Proofs.Compiler.Sessions
import AnalyzerGlue.Proofs.Declaration.Naming
import AnalyzerGlue.Proofs.Compiler.Handlers
import AnalyzerGlue.Proofs.Evt.Nesting
import AnalyzerGlue.Proofs.Evt.Segments
import AnalyzerGlue.Proofs.Compiler.Binding
import AnalyzerGlue.Proofs.Token.Pieces
import AnalyzerGlue.Proofs.Token.Literals
import AnalyzerGlue.Proofs.Expr.Wrapping
import AnalyzerGlue.Proofs.Compiler.DoneHooks
import AnalyzerGlue.Proofs.Expr.Fuel
import AnalyzerGlue.Proofs.Expr.Termination
import AnalyzerGlue.Proofs.Evt.Directives
import AnalyzerGlue.Proofs.GrammarType.Fidelity
import AnalyzerGlue.Proofs.Evt.Ports
import AnalyzerGlue.Proofs.Evt.PortClauses
import AnalyzerGlue.Proofs.QualName.Escaping
import AnalyzerGlue.Proofs.QualName.Splitting
import AnalyzerGlue.Proofs.Evt.Boundaries
