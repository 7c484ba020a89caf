import PackageSymbols.Generation
import PackageSymbols.Proofs.CommandTable.RoundTrip
import PackageSymbols.Proofs.Generation.Namespaces
import PackageSymbols.Proofs.Merge.FirstWins
import PackageSymbols.Proofs.Source.Lossless
import PackageSymbols.Proofs.Classes.Nested
import PackageSymbols.Proofs.Classes.Layouts
import PackageSymbols.Proofs.Generation.Failures
import PackageSymbols.Proofs.Generation.Candidates
import PackageSymbols.Proofs.Generation.OuterClasses
import PackageSymbols.Proofs.Merge.Order
import PackageSymbols.Proofs.Classes.Order
import PackageSymbols.Proofs.Generation.DocumentOrder
import PackageSymbols.Proofs.Generation.Origins
import PackageSymbols.Proofs.Generation.Collisions
import PackageSymbols.Proofs.Markup.Trees
import PackageSymbols.Proofs.Markup.Foreign
import PackageSymbols.Proofs.Markup.Building
import PackageSymbols.Proofs.Manifest.RoundTrip
import PackageSymbols.Proofs.Generation.LanguageVersions
import PackageSymbols.Proofs.Source.ManifestLines
import PackageSymbols.Proofs.Classes.Resolution
import PackageSymbols.Proofs.Merge.Repetition
import PackageSymbols.Proofs.Classes.Repetition
import PackageSymbols.Proofs.Classes.Reordering
import PackageSymbols.Proofs.Classes.FixedPoint
import PackageSymbols.Proofs.Guid.Acceptance
import PackageSymbols.Proofs.CommandId
import PackageSymbols.Proofs.Manifest.Acceptance
import PackageSymbols.Proofs.Source.StringLiterals
import PackageSymbols.Proofs.Generation.Scopes
import PackageSymbols.Proofs.CommandTable.Marks
import PackageSymbols.Proofs.Offsets
import PackageSymbols.Proofs.Identifier.Mending
