import UnitAnalysis.Main
import UnitAnalysis.Proofs.Check.AsyncContext
import UnitAnalysis.Proofs.Check.Frame
import UnitAnalysis.Proofs.Check.Instantiation
import UnitAnalysis.Proofs.Check.Returns
import UnitAnalysis.Proofs.Config.TypeName
import UnitAnalysis.Proofs.Diagnostic.Severity
import UnitAnalysis.Proofs.Document.RoundTrip
import UnitAnalysis.Proofs.Gap.Analysis
import UnitAnalysis.Proofs.Generic.Analysis
import UnitAnalysis.Proofs.Match.Constructors
import UnitAnalysis.Proofs.Match.Soundness
import UnitAnalysis.Proofs.Order.Analysis
import UnitAnalysis.Proofs.Scope.Chain
import UnitAnalysis.Proofs.Scope.GuardedCheck
import UnitAnalysis.Proofs.Symbols.Members
import UnitAnalysis.Proofs.Symbols.PatternTypes
import UnitAnalysis.Proofs.Trait.Instances
import UnitAnalysis.Proofs.Trait.Qualified
import UnitAnalysis.Proofs.Ty.Naming
import UnitAnalysis.Syntax.Make
