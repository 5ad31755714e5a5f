import BundleStore.Bundle
import BundleStore.Cache.Bundles
import BundleStore.Cache.Sharded
import BundleStore.ChangeLog
import BundleStore.Checksum
import BundleStore.Command.Arguments
import BundleStore.Command.Listing
import BundleStore.Command.Run
import BundleStore.Decimal.Layout
import BundleStore.Decimal.Shortest
import BundleStore.Error
import BundleStore.Files.Path
import BundleStore.Files.Tree
import BundleStore.Index.Interner
import BundleStore.Index.StoragePaths
import BundleStore.Index.StringIndex
import BundleStore.Item
import BundleStore.ItemId
import BundleStore.Json.Mapping
import BundleStore.Json.Printer
import BundleStore.Main
import BundleStore.Name
import BundleStore.NodeId
import BundleStore.Proofs.Cache.Departures
import BundleStore.Proofs.Cache.Order
import BundleStore.Proofs.Cache.Recency
import BundleStore.Proofs.Cache.Values
import BundleStore.Proofs.Checksum
import BundleStore.Proofs.Children
import BundleStore.Proofs.Coherence.Alongside
import BundleStore.Proofs.Coherence.Courses
import BundleStore.Proofs.Coherence.Discipline
import BundleStore.Proofs.Coherence.Economy
import BundleStore.Proofs.Coherence.External
import BundleStore.Proofs.Coherence.Identities
import BundleStore.Proofs.Coherence.Invisible
import BundleStore.Proofs.Coherence.Origins
import BundleStore.Proofs.Coherence.Regularity
import BundleStore.Proofs.Coherence.Requests
import BundleStore.Proofs.Coherence.Runs
import BundleStore.Proofs.Coherence.Sessions
import BundleStore.Proofs.Coherence.Staleness
import BundleStore.Proofs.Coherence.Steps
import BundleStore.Proofs.Coherence.System
import BundleStore.Proofs.Coherence.Traffic
import BundleStore.Proofs.Coherence.Uncached
import BundleStore.Proofs.Coherence.Written
import BundleStore.Proofs.Command.Checks
import BundleStore.Proofs.Files.Paths
import BundleStore.Proofs.Files.Pieces
import BundleStore.Proofs.Files.Sites
import BundleStore.Proofs.Files.Trees
import BundleStore.Proofs.Index.Folders
import BundleStore.Proofs.Index.Histories
import BundleStore.Proofs.Index.Interners
import BundleStore.Proofs.Index.Lives
import BundleStore.Proofs.Index.Mappings
import BundleStore.Proofs.Index.Numbers
import BundleStore.Proofs.Index.Rebuilding
import BundleStore.Proofs.Record.Codecs
import BundleStore.Proofs.Record.Corruption
import BundleStore.Proofs.Record.Formats
import BundleStore.Proofs.Record.Layouts
import BundleStore.Proofs.Record.Lengths
import BundleStore.Proofs.SortedMap
import BundleStore.Proofs.Storage.Agreement
import BundleStore.Proofs.Storage.Blobs
import BundleStore.Proofs.Storage.Containment
import BundleStore.Proofs.Storage.Contents
import BundleStore.Proofs.Storage.Counterparts
import BundleStore.Proofs.Storage.Dangling
import BundleStore.Proofs.Storage.Files
import BundleStore.Proofs.Storage.Inspections
import BundleStore.Proofs.Storage.Listings
import BundleStore.Proofs.Storage.Memory
import BundleStore.Proofs.Storage.Mending
import BundleStore.Proofs.Storage.Openings
import BundleStore.Proofs.Storage.Pieces
import BundleStore.Proofs.Storage.Places
import BundleStore.Proofs.Storage.Repairs
import BundleStore.Proofs.Storage.Reports
import BundleStore.Proofs.Storage.Shelves
import BundleStore.Proofs.Storage.Siblings
import BundleStore.Proofs.Storage.Strictness
import BundleStore.Proofs.Storage.Unreadable
import BundleStore.Proofs.Storage.Visits
import BundleStore.Proofs.Storage.Walks
import BundleStore.Proofs.Store.Accounting
import BundleStore.Proofs.Store.Addresses
import BundleStore.Proofs.Store.Aftermath
import BundleStore.Proofs.Store.Applying
import BundleStore.Proofs.Store.Between
import BundleStore.Proofs.Store.Confluence
import BundleStore.Proofs.Store.Durability
import BundleStore.Proofs.Store.Effects
import BundleStore.Proofs.Store.Entries
import BundleStore.Proofs.Store.Fetching
import BundleStore.Proofs.Store.Frame
import BundleStore.Proofs.Store.Handling
import BundleStore.Proofs.Store.Heads
import BundleStore.Proofs.Store.Lasting
import BundleStore.Proofs.Store.Logs
import BundleStore.Proofs.Store.Meaning
import BundleStore.Proofs.Store.Midway
import BundleStore.Proofs.Store.Outcome
import BundleStore.Proofs.Store.Passes
import BundleStore.Proofs.Store.Plain
import BundleStore.Proofs.Store.Readable
import BundleStore.Proofs.Store.Reading
import BundleStore.Proofs.Store.Rearranged
import BundleStore.Proofs.Store.Refusals
import BundleStore.Proofs.Store.Remains
import BundleStore.Proofs.Store.Staging
import BundleStore.Proofs.Store.Tables
import BundleStore.Proofs.Store.Thresholds
import BundleStore.Proofs.Store.Views
import BundleStore.Proofs.Store.Writing
import BundleStore.Proofs.Task.Meets
import BundleStore.Proofs.Text.Hex
import BundleStore.Proofs.Text.Identifiers
import BundleStore.Proofs.Totals
import BundleStore.Record.Codec
import BundleStore.Record.Format
import BundleStore.Record.Frame
import BundleStore.References
import BundleStore.Report
import BundleStore.Repository.Read
import BundleStore.Repository.Store
import BundleStore.Session
import BundleStore.Settings
import BundleStore.SortedMap
import BundleStore.Storage.Blobs
import BundleStore.Storage.Consistency
import BundleStore.Storage.Files
import BundleStore.Storage.Memory
import BundleStore.Task.Action
import BundleStore.Task.Basic
import BundleStore.Task.Bundle
import BundleStore.Text.CodePoints
import BundleStore.Text.Hex
import BundleStore.Text.Quoted
import BundleStore.Toml.Document
import BundleStore.Toml.Outline
import BundleStore.Toml.Scalar
import BundleStore.Value
