import LayeredQuery.Text.Split
import LayeredQuery.Text.Blank
import LayeredQuery.Text.Lowercase
import LayeredQuery.Text.Quoted
import LayeredQuery.Number.Layout
import LayeredQuery.Json.Reader
import LayeredQuery.Json.Printer
import LayeredQuery.Time.Instant
import LayeredQuery.Uuid
import LayeredQuery.Schema.Build
import LayeredQuery.Request.Layer
import LayeredQuery.Plan.Printer
import LayeredQuery.Compiler.Layer
import LayeredQuery.Evaluation.Engine
import LayeredQuery.Proofs.StrictExecution
import LayeredQuery.Proofs.Projection
import LayeredQuery.Proofs.Reordering
import LayeredQuery.Proofs.Scanning
import LayeredQuery.Proofs.Scoping
import LayeredQuery.Proofs.Tagging
import LayeredQuery.Proofs.Evaluation.SortOrder
import LayeredQuery.Proofs.Sorting
import LayeredQuery.Proofs.Schema.Acceptance
import LayeredQuery.Schema.Catalog
import LayeredQuery.Proofs.Schema.Answers
import LayeredQuery.Proofs.Schema.Consistency
import LayeredQuery.Proofs.DepthLimit
import LayeredQuery.Proofs.DepthBound
import LayeredQuery.Proofs.Loading
import LayeredQuery.Proofs.Exposure
import LayeredQuery.Proofs.Resolution
import LayeredQuery.Proofs.Absence
import LayeredQuery.Proofs.Evaluation.IntegerOrder
import LayeredQuery.Proofs.Evaluation.InstantOrder
import LayeredQuery.Proofs.Evaluation.Agreement
import LayeredQuery.Proofs.Paging
import LayeredQuery.Proofs.Exchange
import LayeredQuery.Proofs.Untagging
import LayeredQuery.Proofs.Merging
import LayeredQuery.Proofs.LeafChains
import LayeredQuery.Proofs.RoundTrip
import LayeredQuery.Proofs.Schema.Faults
import LayeredQuery.Proofs.Walking
import LayeredQuery.Proofs.Crossing
import LayeredQuery.Proofs.Tracing
import LayeredQuery.Proofs.Restoring
import LayeredQuery.Proofs.Retagging
import LayeredQuery.Proofs.Stopping
import LayeredQuery.Proofs.CanonicalText
import LayeredQuery.Proofs.Sessions
