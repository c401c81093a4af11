import Typeward.Build
import Typeward.Compilation
import Typeward.Configuration
import Typeward.Declaration
import Typeward.EditDistance
import Typeward.Emission
import Typeward.Enforcement
import Typeward.Failure
import Typeward.Fault
import Typeward.Hint
import Typeward.ImportHook
import Typeward.Location
import Typeward.Lowering
import Typeward.Marker
import Typeward.Number.Binary64
import Typeward.Number.Reading
import Typeward.Number.Shortest
import Typeward.Options
import Typeward.Plan
import Typeward.Proofs.Acceptance
import Typeward.Proofs.AcceptedModules
import Typeward.Proofs.AgreeingPasses
import Typeward.Proofs.AliasHygiene
import Typeward.Proofs.AlikeChecks
import Typeward.Proofs.AlikeHints
import Typeward.Proofs.AlikeScopes
import Typeward.Proofs.AlikeTexts
import Typeward.Proofs.Allocation
import Typeward.Proofs.AtomPlaces
import Typeward.Proofs.BlamedPlaces
import Typeward.Proofs.BuildableTypes
import Typeward.Proofs.BuiltForms
import Typeward.Proofs.CallPlaces
import Typeward.Proofs.CanonicalForms
import Typeward.Proofs.Captures
import Typeward.Proofs.CleanFailures
import Typeward.Proofs.ClosestNames
import Typeward.Proofs.CollectedNames
import Typeward.Proofs.Courses
import Typeward.Proofs.DeclarationSites
import Typeward.Proofs.DeclaredTypes
import Typeward.Proofs.DeferredReferences
import Typeward.Proofs.DefinitionRuns
import Typeward.Proofs.DenotedTypes
import Typeward.Proofs.Descriptions
import Typeward.Proofs.EditScripts
import Typeward.Proofs.EmittedNames
import Typeward.Proofs.EndingChecks
import Typeward.Proofs.Erasure
import Typeward.Proofs.EvaluatedNames
import Typeward.Proofs.Evaluations
import Typeward.Proofs.ExactSplicing
import Typeward.Proofs.ExposedReferences
import Typeward.Proofs.ExpressionPlaces
import Typeward.Proofs.FaultPlaces
import Typeward.Proofs.FieldPlaces
import Typeward.Proofs.FreshNames
import Typeward.Proofs.GuardedTypes
import Typeward.Proofs.HiddenBuiltins
import Typeward.Proofs.HintFaults
import Typeward.Proofs.HintReadings
import Typeward.Proofs.HookBookkeeping
import Typeward.Proofs.ImportSafety
import Typeward.Proofs.ImportedNames
import Typeward.Proofs.InheritedFields
import Typeward.Proofs.LateReferences
import Typeward.Proofs.LazyWrapping
import Typeward.Proofs.LibraryCalls
import Typeward.Proofs.LoweredNames
import Typeward.Proofs.LoweredPlacements
import Typeward.Proofs.LoweringFaults
import Typeward.Proofs.MeaningPreservation
import Typeward.Proofs.Meanings
import Typeward.Proofs.MetReferences
import Typeward.Proofs.MirroredChecks
import Typeward.Proofs.ModuleOrder
import Typeward.Proofs.NamedSchemas
import Typeward.Proofs.Nodes
import Typeward.Proofs.Occurrences
import Typeward.Proofs.OptionPrecedence
import Typeward.Proofs.OverlongIntegers
import Typeward.Proofs.Overwriting
import Typeward.Proofs.ParallelTypes
import Typeward.Proofs.PathShifts
import Typeward.Proofs.PatternPlaces
import Typeward.Proofs.PlacelessCode
import Typeward.Proofs.PlacementRuns
import Typeward.Proofs.Placements
import Typeward.Proofs.PlainChecks
import Typeward.Proofs.PlanAccounts
import Typeward.Proofs.PlanFaults
import Typeward.Proofs.PlanRuns
import Typeward.Proofs.Plannability
import Typeward.Proofs.ProductiveTypes
import Typeward.Proofs.QuotedAnnotations
import Typeward.Proofs.Recompilation
import Typeward.Proofs.RecordInheritance
import Typeward.Proofs.RecordRuns
import Typeward.Proofs.RecordVerdicts
import Typeward.Proofs.RefinementRequests
import Typeward.Proofs.RegistryRuns
import Typeward.Proofs.ReifiedTypes
import Typeward.Proofs.ReliableChecks
import Typeward.Proofs.RenderedForms
import Typeward.Proofs.Renderings
import Typeward.Proofs.RequotedHints
import Typeward.Proofs.RequotedLowering
import Typeward.Proofs.RequotedModules
import Typeward.Proofs.ReservedNames
import Typeward.Proofs.ResolvedTypes
import Typeward.Proofs.RuleSpans
import Typeward.Proofs.RuntimeMeanings
import Typeward.Proofs.ScopedReferences
import Typeward.Proofs.SettledTrees
import Typeward.Proofs.Shapes
import Typeward.Proofs.SourceExcerpts
import Typeward.Proofs.SpecialForms
import Typeward.Proofs.SplicedNames
import Typeward.Proofs.StatementOrder
import Typeward.Proofs.StatementPlaces
import Typeward.Proofs.Steps
import Typeward.Proofs.SturdyCode
import Typeward.Proofs.SturdyEvaluations
import Typeward.Proofs.SturdySessions
import Typeward.Proofs.Suppression
import Typeward.Proofs.TokenOrder
import Typeward.Proofs.ToldChecks
import Typeward.Proofs.TypeOnlyNames
import Typeward.Proofs.UnionMembers
import Typeward.Proofs.Verdicts
import Typeward.Proofs.VisitedForms
import Typeward.Proofs.WidthSubtyping
import Typeward.Registry
import Typeward.Render
import Typeward.Sample
import Typeward.Schema
import Typeward.Schema.Evaluation
import Typeward.Schema.Inspection
import Typeward.Schema.Library
import Typeward.Schema.Naming
import Typeward.Schema.Session
import Typeward.Schema.Validation
import Typeward.Scope
import Typeward.Scope.Collect
import Typeward.Source.Comments
import Typeward.Source.Constant
import Typeward.Source.Grammar.Atom
import Typeward.Source.Grammar.Expression
import Typeward.Source.Grammar.Pattern
import Typeward.Source.Grammar.Statement
import Typeward.Source.Lexer
import Typeward.Source.Literal
import Typeward.Source.Parse
import Typeward.Source.Parser
import Typeward.Source.Placement
import Typeward.Source.Printer
import Typeward.Source.Slots
import Typeward.Source.StatementSlots
import Typeward.Source.Token
import Typeward.Source.Tree
import Typeward.Splice
import Typeward.StaticType
import Typeward.Suggestion
import Typeward.Text.Blank
import Typeward.Text.Compatibility
import Typeward.Text.Encoding
import Typeward.Text.Identifier
import Typeward.Text.Lines
import Typeward.Text.LowerCase
import Typeward.Text.Printable
import Typeward.Text.Quoted
import Typeward.Text.Ranges
import Typeward.Toml.Document
import Typeward.Toml.Reader
import Typeward.TypeExpr
import Typeward.Value
import Typeward.Value.Equality
import Typeward.Value.Text
