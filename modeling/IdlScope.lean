import IdlScope.Decimal.Layout
import IdlScope.Decimal.Reading
import IdlScope.Diagnostic
import IdlScope.ImportTable
import IdlScope.Naming.NameTable
import IdlScope.Naming.Parameter
import IdlScope.Naming.WordCase
import IdlScope.Scope.Error
import IdlScope.Scope.Expansion
import IdlScope.Scope.FieldLayout
import IdlScope.Target.Package
import IdlScope.Target.Tags
import IdlScope.Target.ValueText
import IdlScope.Text.Quoted
import IdlScope.Text.Segments
import IdlScope.Outline
import IdlScope.Scope.Rendering
import IdlScope.Proofs.AliasSpelling
import IdlScope.Proofs.Batches
import IdlScope.Proofs.BreadthFirst
import IdlScope.Proofs.Conflicts
import IdlScope.Proofs.EnumValues
import IdlScope.Proofs.FieldNumbers
import IdlScope.Proofs.Flags
import IdlScope.Proofs.Functions
import IdlScope.Proofs.GeneratedSizes
import IdlScope.Proofs.Histories
import IdlScope.Proofs.Identity
import IdlScope.Proofs.IncludeErrors
import IdlScope.Proofs.IncludeTables
import IdlScope.Proofs.Inlining
import IdlScope.Proofs.Literals
import IdlScope.Proofs.Lookups
import IdlScope.Proofs.Members
import IdlScope.Proofs.Mentions
import IdlScope.Proofs.Namespaces
import IdlScope.Proofs.Parameters
import IdlScope.Proofs.Paths
import IdlScope.Proofs.Pools
import IdlScope.Proofs.Registrations
import IdlScope.Proofs.RoundTrips
import IdlScope.Proofs.Signatures
import IdlScope.Proofs.Texts
import IdlScope.Proofs.TypedefValues
