import Softcode.Assignment
import Softcode.Banner
import Softcode.Bundled
import Softcode.Command
import Softcode.Comment
import Softcode.CompileError
import Softcode.Compiler
import Softcode.Compress
import Softcode.Constant
import Softcode.Continuation
import Softcode.Diagnostic
import Softcode.Directive
import Softcode.Expr
import Softcode.Fetcher
import Softcode.FileTree
import Softcode.Instruction
import Softcode.Json.Basic
import Softcode.Json.Reader
import Softcode.Language
import Softcode.Line
import Softcode.Lint
import Softcode.Macro
import Softcode.Main
import Softcode.Manifest
import Softcode.Namespace
import Softcode.Options
import Softcode.Path
import Softcode.Pattern.Ast
import Softcode.Pattern.Basic
import Softcode.Pattern.CharClass
import Softcode.Pattern.Compile
import Softcode.Pattern.Property
import Softcode.Pattern.Reader
import Softcode.Reference
import Softcode.Resolver
import Softcode.Scan
import Softcode.SelfCheck
import Softcode.Session
import Softcode.SourceError
import Softcode.Template
import Softcode.Text.Basic
import Softcode.Text.CaseFold
import Softcode.Text.Category
import Softcode.Text.Quoted
import Softcode.Text.Utf8
import Softcode.Url.Basic
import Softcode.Url.Host
import Softcode.Url.Parser
import Softcode.Url.Percent
import Softcode.Url.Punycode
import Softcode.Word
import Softcode.Proofs.Splitting
import Softcode.Proofs.Brackets
import Softcode.Proofs.NestedSplitting
import Softcode.Proofs.MacroBlocks
import Softcode.Proofs.Parentheses
import Softcode.Proofs.ExprGrammar
import Softcode.Proofs.ExprReading
import Softcode.Proofs.BlockOpener
import Softcode.Proofs.BlockForest
import Softcode.Proofs.BlockExpansion
import Softcode.Proofs.BlockSteps
import Softcode.Proofs.LoopRollback
import Softcode.Proofs.LoopWarnings
import Softcode.Proofs.BlockMachine
import Softcode.Proofs.ExpansionBound
import Softcode.Proofs.ClosedBodies
import Softcode.Proofs.IncludeTree
import Softcode.Proofs.FiniteSources
import Softcode.Proofs.IncludePaths
import Softcode.Proofs.LineForms
import Softcode.Proofs.FoundSources
import Softcode.Proofs.ReferenceSplice
import Softcode.Proofs.LoadingSteps
import Softcode.Proofs.FailedLoading
import Softcode.Proofs.CycleDetection
import Softcode.Proofs.Oversize
import Softcode.Proofs.LargestCut
import Softcode.Proofs.RawLines
import Softcode.Proofs.Scanning
import Softcode.Proofs.Rescanning
import Softcode.Proofs.Identifiers
import Softcode.Proofs.StageInvariants
import Softcode.Proofs.Findings
import Softcode.Proofs.Places
import Softcode.Proofs.Provenance
import Softcode.Proofs.Balance
import Softcode.Proofs.StrippedBrackets
import Softcode.Proofs.WordRuns
import Softcode.Proofs.PhysicalLines
import Softcode.Proofs.NamesApart
import Softcode.Proofs.Tagging
import Softcode.Proofs.Matching
import Softcode.Proofs.PatternTrees
import Softcode.Proofs.PatternReading
import Softcode.Proofs.MacroCalls
import Softcode.Proofs.PatternExtension
import Softcode.Proofs.ClassExtension
import Softcode.Proofs.ExtendedPatterns
import Softcode.Proofs.TriggerMatches
import Softcode.Proofs.StableNames
import Softcode.Proofs.LineTokens
import Softcode.Proofs.CommentTokens
import Softcode.Proofs.MissingCloser
import Softcode.Proofs.RuleLevels
import Softcode.Proofs.MergedReports
import Softcode.Proofs.CheckBlocks
import Softcode.Proofs.OpenerTests
import Softcode.Proofs.SplittingCalls
import Softcode.Proofs.EncodedText
import Softcode.Proofs.RepositoryAddresses
import Softcode.Proofs.ExprMachine
import Softcode.Proofs.ExprMachineAgrees
