import DocumentStore.Heap.Lemmas
import DocumentStore.Expression.Equality
import DocumentStore.Engine.Listing
import DocumentStore.Workspace.Methods
import DocumentStore.Proofs.Engine.History
import DocumentStore.Proofs.Engine.Refinement
import DocumentStore.Proofs.Engine.Sequences
import DocumentStore.Proofs.Number.Rounding
import DocumentStore.Proofs.Number.Shortest
import DocumentStore.Proofs.Number.Numeral
import DocumentStore.Proofs.Json.RoundTrip
import DocumentStore.Proofs.Json.Copy
import DocumentStore.Proofs.Engine.StoredForm
import DocumentStore.Proofs.Heap.Placement
import DocumentStore.Proofs.Engine.Properties
import DocumentStore.Proofs.Digest.Encoding
import DocumentStore.Proofs.Engine.Contents
import DocumentStore.Proofs.Engine.Blobs
import DocumentStore.Proofs.Workspace.Requests
import DocumentStore.Proofs.Workspace.Conflicts
import DocumentStore.Proofs.Heap.Written
import DocumentStore.Proofs.Engine.SavedTrees
import DocumentStore.Proofs.Engine.Failures
import DocumentStore.Proofs.Workspace.Failures
import DocumentStore.Proofs.Heap.Layout
import DocumentStore.Proofs.Heap.Territory
import DocumentStore.Proofs.Heap.Mutation
import DocumentStore.Proofs.Engine.Resident
import DocumentStore.Proofs.Engine.Isolation
import DocumentStore.Proofs.Calendar.Days
import DocumentStore.Proofs.Calendar.Timestamps
import DocumentStore.Proofs.Calendar.Accuracy
import DocumentStore.Proofs.Calendar.Order
import DocumentStore.Proofs.Calendar.Pattern
import DocumentStore.Proofs.Engine.Versions
import DocumentStore.Proofs.Number.Overflow
import DocumentStore.Proofs.Workspace.Getters
import DocumentStore.Proofs.Workspace.Dates
import DocumentStore.Proofs.Workspace.Removals
import DocumentStore.Proofs.Expression.Canonical
import DocumentStore.Proofs.Expression.Recovery
import DocumentStore.Proofs.Table.KeyOrder
import DocumentStore.Proofs.Table.Shares
import DocumentStore.Proofs.Engine.Separation
import DocumentStore.Proofs.Engine.Fetches
import DocumentStore.Proofs.Workspace.Identity
import DocumentStore.Proofs.Json.Trees
import DocumentStore.Proofs.Engine.Resaving
import DocumentStore.Proofs.Json.Ascii
import DocumentStore.Proofs.Json.Grammar
import DocumentStore.Proofs.Json.KeyOrder
import DocumentStore.Proofs.Engine.Revisions
import DocumentStore.Proofs.Workspace.Texts
import DocumentStore.Proofs.Heap.Plain
import DocumentStore.Proofs.Expression.Definitions
import DocumentStore.Proofs.Engine.Indexes
import DocumentStore.Proofs.Workspace.Calls
import DocumentStore.Proofs.Workspace.Indexes
import DocumentStore.Proofs.Heap.Copies
import DocumentStore.Proofs.Workspace.Parameters
import DocumentStore.Proofs.Workspace.Queries
import DocumentStore.Proofs.Workspace.Sessions
import DocumentStore.Proofs.Workspace.Executions
import DocumentStore.Proofs.Expression.Grammar
import DocumentStore.Proofs.Heap.Circles
import DocumentStore.Proofs.Engine.Circles
import DocumentStore.Proofs.Number.Equality
import DocumentStore.Proofs.Heap.Equality
import DocumentStore.Proofs.Heap.Drafts
import DocumentStore.Proofs.Expression.Sense
import DocumentStore.Proofs.Expression.Equality
import DocumentStore.Proofs.Heap.Forms
import DocumentStore.Proofs.Engine.Forms
import DocumentStore.Proofs.Number.Truncation
import DocumentStore.Proofs.Workspace.Coercions
import DocumentStore.Proofs.Json.Acceptance
import DocumentStore.Proofs.Workspace.BlobTexts
import DocumentStore.Proofs.Heap.Agreement
import DocumentStore.Proofs.Workspace.Answers
import DocumentStore.Proofs.Workspace.BagCalls
import DocumentStore.Proofs.Workspace.SharedBags
