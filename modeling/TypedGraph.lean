import TypedGraph.Connection.OfList
import TypedGraph.Connection.OfStore
import TypedGraph.Proofs.Filter.Fitting
import TypedGraph.Proofs.Value.Equality
import TypedGraph.Schema.Reader
import TypedGraph.Schema.Sample
import TypedGraph.Update.Compiler
import TypedGraph.Value.Reader
import TypedGraph.Proofs.Pattern.Suffix
import TypedGraph.Proofs.Query.Element
import TypedGraph.Proofs.Query.Agreement
import TypedGraph.Proofs.Number.Binary64
import TypedGraph.Proofs.Number.Preorder
import TypedGraph.Proofs.Text.Utf8
import TypedGraph.Proofs.Expression.Evaluate
import TypedGraph.Proofs.Expression.Agreement
import TypedGraph.Proofs.Connection.Noninterference
import TypedGraph.Proofs.Permission.Exactness
import TypedGraph.Proofs.Connection.Answer
import TypedGraph.Proofs.Connection.Collection
import TypedGraph.Proofs.Connection.RowOrder
import TypedGraph.Proofs.Connection.Walk
import TypedGraph.Proofs.Connection.Snapshots
import TypedGraph.Proofs.Filter.Reading
import TypedGraph.Proofs.Filter.Faults
import TypedGraph.Proofs.Filter.Ambiguity
import TypedGraph.Proofs.Update.Edit
import TypedGraph.Proofs.Update.SortedInsert
import TypedGraph.Proofs.Order.Preorder
import TypedGraph.Proofs.Value.Preorder
import TypedGraph.Proofs.Order.SortDocument
import TypedGraph.Proofs.Page.Cursor
import TypedGraph.Proofs.Page.Window
import TypedGraph.Proofs.Query.Acceptance
import TypedGraph.Proofs.Permission.Parallel
import TypedGraph.Proofs.Schema.Loading
import TypedGraph.Proofs.Filter.Acceptance
import TypedGraph.Proofs.Permission.Acceptance
import TypedGraph.Proofs.Connection.Agreement
import TypedGraph.Proofs.Value.Merge
import TypedGraph.Proofs.Update.Merge
import TypedGraph.Proofs.Aggregate.Labels
import TypedGraph.Proofs.Connection.Aggregates
import TypedGraph.Proofs.Aggregate.Agreement
import TypedGraph.Proofs.Update.Changes
import TypedGraph.Proofs.Update.Leaves
import TypedGraph.Proofs.Update.Conflict
import TypedGraph.Proofs.Page.Spelling
import TypedGraph.Proofs.Page.Arithmetic
import TypedGraph.Proofs.Page.Exactness
import TypedGraph.Proofs.Connection.CappedWalk
import TypedGraph.Proofs.Update.Insertion
import TypedGraph.Proofs.Update.ElementFilter
import TypedGraph.Proofs.Update.ListUpdate
import TypedGraph.Proofs.Update.Deletion
import TypedGraph.Proofs.Update.Restoration
import TypedGraph.Proofs.Query.Merging
import TypedGraph.Proofs.Permission.Guards
import TypedGraph.Proofs.Connection.Rejection
import TypedGraph.Proofs.Connection.NodePath
