import DerivedQuery.Main
import DerivedQuery.Proofs.Filter.ListedFields
import DerivedQuery.Proofs.Filter.Negation
import DerivedQuery.Proofs.Filter.OperatorCheck
import DerivedQuery.Proofs.Filter.RoundTrip
import DerivedQuery.Proofs.Filter.Sorting
import DerivedQuery.Proofs.Filter.UnlistedFields
import DerivedQuery.Proofs.Geo.Polygon
import DerivedQuery.Proofs.Json.Quotes
import DerivedQuery.Proofs.Method.Limit
import DerivedQuery.Proofs.Method.Writing
import DerivedQuery.Proofs.Query.Complements
import DerivedQuery.Proofs.Query.DeclaredNames
import DerivedQuery.Proofs.Query.Equality
import DerivedQuery.Proofs.Query.Grammar
import DerivedQuery.Proofs.Query.IgnoreCase
import DerivedQuery.Proofs.Query.Leaves
import DerivedQuery.Proofs.Query.LiteralText
import DerivedQuery.Proofs.Query.NamedKind
import DerivedQuery.Proofs.Query.Places
import DerivedQuery.Proofs.Query.Ranges
import DerivedQuery.Proofs.Query.Refusals
import DerivedQuery.Proofs.Query.Wildcards
import DerivedQuery.Proofs.Repository.Cursors
import DerivedQuery.Proofs.Repository.SortKeys
import DerivedQuery.Proofs.Schema.GeoPaths
import DerivedQuery.Proofs.Schema.Reordering
import DerivedQuery.Proofs.Store.PageNumbers
import DerivedQuery.Proofs.Store.ProjectedDistances
import DerivedQuery.Proofs.Store.RankedPages
import DerivedQuery.Proofs.Store.Shapes
import DerivedQuery.Repository.Entity
import DerivedQuery.Schema.Catalog
