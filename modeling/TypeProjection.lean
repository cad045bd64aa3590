import TypeProjection.Main
import TypeProjection.Session
import TypeProjection.Proofs.Registration
import TypeProjection.Proofs.RegistryRuns
import TypeProjection.Proofs.Placements
import TypeProjection.Proofs.Visits
import TypeProjection.Proofs.Effects
import TypeProjection.Proofs.Expressions
import TypeProjection.Proofs.Nulls
import TypeProjection.Proofs.Wrappers
import TypeProjection.Proofs.Provenance
import TypeProjection.Proofs.Markers
import TypeProjection.Proofs.Names
import TypeProjection.Proofs.History
import TypeProjection.Proofs.Grammar
import TypeProjection.Proofs.Parsing
import TypeProjection.Proofs.Texts
import TypeProjection.Proofs.Identity
import TypeProjection.Proofs.Resolution
import TypeProjection.Proofs.GrowingCatalogs
import TypeProjection.Proofs.KnownNames
import TypeProjection.Proofs.ArraysAndLists
import TypeProjection.Proofs.Loading
import TypeProjection.Proofs.CatalogEntries
import TypeProjection.Proofs.PrettyNames
import TypeProjection.Proofs.Renaming
import TypeProjection.Proofs.Layouts
import TypeProjection.Proofs.Spellings
import TypeProjection.Proofs.DistinctNames
import TypeProjection.Proofs.QualifiedNames
import TypeProjection.Proofs.LiteralTexts
import TypeProjection.Proofs.OverrideTexts
import TypeProjection.Proofs.Overrides
import TypeProjection.Proofs.UnmarkedTexts
import TypeProjection.Proofs.LineBreaks
import TypeProjection.Proofs.Reports
import TypeProjection.Proofs.ByteOrder
import TypeProjection.Proofs.Listings
import TypeProjection.Proofs.StrippedNames
