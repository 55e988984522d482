import PklAnalysis.Base
import PklAnalysis.Cache
import PklAnalysis.Check.Conformity
import PklAnalysis.Check.Outcome
import PklAnalysis.Completion
import PklAnalysis.Constant.Eval
import PklAnalysis.Constant.Member
import PklAnalysis.Constant.Operator
import PklAnalysis.Constant.Value
import PklAnalysis.Decimal.Binary
import PklAnalysis.Decimal.Shortest
import PklAnalysis.Decimal.Text
import PklAnalysis.Diagnostic.Basic
import PklAnalysis.Diagnostic.Catalogue
import PklAnalysis.Diagnostic.Definition
import PklAnalysis.Diagnostic.Modifiers
import PklAnalysis.Diagnostic.References
import PklAnalysis.Diagnostic.Report
import PklAnalysis.Diagnostic.Values
import PklAnalysis.Files.Basic
import PklAnalysis.Files.Path
import PklAnalysis.Guard
import PklAnalysis.Json.Decoder
import PklAnalysis.Json.Quoted
import PklAnalysis.Json.Reader
import PklAnalysis.Json.Value
import PklAnalysis.Limits
import PklAnalysis.LogFormat
import PklAnalysis.Pattern.Basic
import PklAnalysis.Pattern.Source
import PklAnalysis.Project.Basic
import PklAnalysis.Project.Package
import PklAnalysis.Project.Resolution
import PklAnalysis.Project.Version
import PklAnalysis.Proofs.Cache.History
import PklAnalysis.Proofs.Check.Agreement
import PklAnalysis.Proofs.Check.Alternatives
import PklAnalysis.Proofs.Check.Classification
import PklAnalysis.Proofs.Check.Distribution
import PklAnalysis.Proofs.Check.Verdict
import PklAnalysis.Proofs.Constant.Arithmetic
import PklAnalysis.Proofs.Constant.Conditions
import PklAnalysis.Proofs.Constant.Evaluation
import PklAnalysis.Proofs.Constant.Exact
import PklAnalysis.Proofs.Constant.Information
import PklAnalysis.Proofs.Constant.Kinds
import PklAnalysis.Proofs.Constant.Sound
import PklAnalysis.Proofs.Diagnostic.Order
import PklAnalysis.Proofs.Diagnostic.Places
import PklAnalysis.Proofs.Diagnostic.Switches
import PklAnalysis.Proofs.Project.Folding
import PklAnalysis.Proofs.Project.Package
import PklAnalysis.Proofs.Project.Relative
import PklAnalysis.Proofs.Project.Resolution
import PklAnalysis.Proofs.Scope.Bounds
import PklAnalysis.Proofs.Scope.Completion
import PklAnalysis.Proofs.Scope.Heirs
import PklAnalysis.Proofs.Scope.Inheritance
import PklAnalysis.Proofs.Scope.Lambdas
import PklAnalysis.Proofs.Scope.Lineage
import PklAnalysis.Proofs.Scope.Local
import PklAnalysis.Proofs.Scope.Parameters
import PklAnalysis.Proofs.Scope.Presented
import PklAnalysis.Proofs.Scope.Questions
import PklAnalysis.Proofs.Scope.Visitors
import PklAnalysis.Proofs.Scope.Walks
import PklAnalysis.Proofs.Session.Afresh
import PklAnalysis.Proofs.Session.Aliases
import PklAnalysis.Proofs.Session.Classes
import PklAnalysis.Proofs.Session.Depth
import PklAnalysis.Proofs.Session.Derivation
import PklAnalysis.Proofs.Session.Elaboration
import PklAnalysis.Proofs.Session.Envelope
import PklAnalysis.Proofs.Session.Fixed
import PklAnalysis.Proofs.Session.Folding
import PklAnalysis.Proofs.Session.Formed
import PklAnalysis.Proofs.Session.Ledger
import PklAnalysis.Proofs.Session.Locality
import PklAnalysis.Proofs.Session.ModuleTypes
import PklAnalysis.Proofs.Session.Null
import PklAnalysis.Proofs.Session.Overlap
import PklAnalysis.Proofs.Session.Possible
import PklAnalysis.Proofs.Session.Projection
import PklAnalysis.Proofs.Session.Reading
import PklAnalysis.Proofs.Session.Reads
import PklAnalysis.Proofs.Session.Recording
import PklAnalysis.Proofs.Session.Refusals
import PklAnalysis.Proofs.Session.Rendered
import PklAnalysis.Proofs.Session.Rendering
import PklAnalysis.Proofs.Session.Sealed
import PklAnalysis.Proofs.Session.Source
import PklAnalysis.Proofs.Session.Stage
import PklAnalysis.Proofs.Session.Substitution
import PklAnalysis.Proofs.Session.Subtype
import PklAnalysis.Proofs.Session.Supermodules
import PklAnalysis.Proofs.Session.Symmetric
import PklAnalysis.Proofs.Session.Table
import PklAnalysis.Proofs.Session.Union
import PklAnalysis.Proofs.Standard.Clauses
import PklAnalysis.Proofs.Standard.Constants
import PklAnalysis.Proofs.Standard.Lexical
import PklAnalysis.Proofs.Standard.Members
import PklAnalysis.Proofs.Standard.Settled
import PklAnalysis.Proofs.Syntax.Binders
import PklAnalysis.Proofs.Syntax.Expression
import PklAnalysis.Proofs.Syntax.Innermost
import PklAnalysis.Proofs.Syntax.Lexemes
import PklAnalysis.Proofs.Syntax.Precedence
import PklAnalysis.Proofs.Syntax.Printing
import PklAnalysis.Proofs.Syntax.Reader
import PklAnalysis.Proofs.Syntax.Sealing
import PklAnalysis.Proofs.Syntax.WellFormed
import PklAnalysis.Proofs.Text.Pieces
import PklAnalysis.Proofs.Types.Arguments
import PklAnalysis.Proofs.Types.Below
import PklAnalysis.Proofs.Types.Built
import PklAnalysis.Proofs.Types.Chosen
import PklAnalysis.Proofs.Types.Evidence
import PklAnalysis.Proofs.Types.Folding
import PklAnalysis.Proofs.Types.Form
import PklAnalysis.Proofs.Types.Height
import PklAnalysis.Proofs.Types.Hierarchy
import PklAnalysis.Proofs.Types.Instances
import PklAnalysis.Proofs.Types.Null
import PklAnalysis.Proofs.Types.Overlap
import PklAnalysis.Proofs.Types.Questions
import PklAnalysis.Proofs.Types.Rebinding
import PklAnalysis.Proofs.Types.Shapes
import PklAnalysis.Proofs.Types.Sides
import PklAnalysis.Proofs.Types.Stable
import PklAnalysis.Proofs.Types.Substitution
import PklAnalysis.Proofs.Types.Symmetric
import PklAnalysis.Proofs.Types.Transitive
import PklAnalysis.Proofs.Types.Union
import PklAnalysis.Proofs.Typing.Arity
import PklAnalysis.Proofs.Typing.Calls
import PklAnalysis.Proofs.Typing.Conditions
import PklAnalysis.Proofs.Typing.Flow
import PklAnalysis.Proofs.Typing.Inferred
import PklAnalysis.Proofs.Typing.Kept
import PklAnalysis.Proofs.Typing.Naming
import PklAnalysis.Proofs.Typing.Narrowing
import PklAnalysis.Proofs.Typing.Parts
import PklAnalysis.Proofs.Typing.Unions
import PklAnalysis.Proofs.Workspace.Diagnostics
import PklAnalysis.Proofs.Workspace.Entries
import PklAnalysis.Proofs.Workspace.Events
import PklAnalysis.Proofs.Workspace.Modules
import PklAnalysis.Proofs.Workspace.Stale
import PklAnalysis.Query
import PklAnalysis.Scope.Lookup
import PklAnalysis.Scope.Visit
import PklAnalysis.Scope.Walk
import PklAnalysis.Session
import PklAnalysis.Settings
import PklAnalysis.Span
import PklAnalysis.Standard.Signature
import PklAnalysis.Standard.Table
import PklAnalysis.Standard.Tree
import PklAnalysis.Syntax.Builder
import PklAnalysis.Syntax.Name
import PklAnalysis.Syntax.Node
import PklAnalysis.Syntax.Printer
import PklAnalysis.Syntax.Tree
import PklAnalysis.Text.Blank
import PklAnalysis.Text.Case
import PklAnalysis.Text.Case.Table
import PklAnalysis.Text.CodePoints
import PklAnalysis.Text.Escaped
import PklAnalysis.Text.Printable
import PklAnalysis.Text.Quoted
import PklAnalysis.Text.Split
import PklAnalysis.Text.Word
import PklAnalysis.Types.Basic
import PklAnalysis.Types.Bindings
import PklAnalysis.Types.Hierarchy
import PklAnalysis.Types.Objects
import PklAnalysis.Types.Render
import PklAnalysis.Types.Subtype
import PklAnalysis.Types.Union
import PklAnalysis.Typing.Access
import PklAnalysis.Typing.Annotation
import PklAnalysis.Typing.Call
import PklAnalysis.Typing.Declaration
import PklAnalysis.Typing.Expected
import PklAnalysis.Typing.Expr
import PklAnalysis.Typing.Flow
import PklAnalysis.Typing.This
import PklAnalysis.Workspace.Analysis
import PklAnalysis.Workspace.Basic
import PklAnalysis.Workspace.Requests
