import TabDeck.Binder.Machine
import TabDeck.Gesture.Drag
import TabDeck.Log.Logger
import TabDeck.Recycler.Attached
import TabDeck.Recycler.Container
import TabDeck.Session.CommandLine
import TabDeck.Session.Defaults
import TabDeck.Session.Registry
import TabDeck.SortedList.Editor
import TabDeck.State.SavedState
import TabDeck.Style.Theme
import TabDeck.Task.Pool
import TabDeck.Task.Queue
import TabDeck.View.Holders
import TabDeck.View.Node
import TabDeck.Proofs.SortedList.Reference
import TabDeck.Proofs.Binder.Operations
import TabDeck.Proofs.Binder.Cancellation
import TabDeck.Proofs.Binder.Provenance
import TabDeck.Proofs.Cache.Recency
import TabDeck.Proofs.Recycler.Journal
import TabDeck.Proofs.Recycler.Bookkeeping
import TabDeck.Proofs.Recycler.Children
import TabDeck.Proofs.Recycler.Mirror
import TabDeck.Proofs.Order.Insertion
import TabDeck.Proofs.Recycler.Sorted
import TabDeck.Proofs.Recycler.Calls
import TabDeck.Proofs.Recycler.Lifetime
import TabDeck.Proofs.Session.CommandLine
import TabDeck.Proofs.Session.Step
import TabDeck.Proofs.Session.Published
import TabDeck.Proofs.Json.Strings
import TabDeck.Proofs.Json.Legible
import TabDeck.Proofs.Json.Tokens
import TabDeck.Proofs.Dictionary
import TabDeck.Proofs.Json.Exact
import TabDeck.Proofs.State.Payload
import TabDeck.Proofs.State.SavedState
import TabDeck.Proofs.Recycler.Arrangement
import TabDeck.Proofs.Recycler.Entries
import TabDeck.Proofs.Recycler.Table
import TabDeck.Proofs.Recycler.Refinement
import TabDeck.Proofs.Task.Drain
import TabDeck.Proofs.Task.Ledger
import TabDeck.Proofs.Binder.Inline
import TabDeck.Proofs.Binder.Order
import TabDeck.Proofs.Session.Course
import TabDeck.Proofs.Session.Lock
import TabDeck.Proofs.Session.Roll
import TabDeck.Proofs.Session.Book
import TabDeck.Proofs.Session.Receiving
import TabDeck.Proofs.Session.Routing
import TabDeck.Proofs.View.Marks
import TabDeck.Proofs.SortedList.Edits
import TabDeck.Proofs.SortedList.Batches
import TabDeck.Proofs.Order.Rules
import TabDeck.Proofs.Json.Keys
import TabDeck.Proofs.Style.Documents
import TabDeck.Proofs.View.InPlace
import TabDeck.Proofs.Cache.Capacity
import TabDeck.Proofs.Recycler.Removal
import TabDeck.Proofs.Recycler.Faults
import TabDeck.Proofs.Text.ByteOrder
import TabDeck.Proofs.Json.Shape
import TabDeck.Proofs.State.Bundle
import TabDeck.Proofs.Style.Chains
import TabDeck.Proofs.Style.Colors
import TabDeck.Proofs.Gesture.Tracking
import TabDeck.Proofs.Gesture.Paths
import TabDeck.Proofs.Session.Renumbering
import TabDeck.Proofs.Session.Shutdown
import TabDeck.Proofs.Session.Closing
import TabDeck.Proofs.Recycler.Ties
