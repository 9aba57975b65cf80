import MergedPaging.Binary64
import MergedPaging.Bookmark
import MergedPaging.Catalog.Blockchain
import MergedPaging.Catalog.Entity
import MergedPaging.Catalog.Fixture
import MergedPaging.Catalog.Listing
import MergedPaging.CommandLine.Arguments
import MergedPaging.CommandLine.Run
import MergedPaging.Config
import MergedPaging.Config.Json
import MergedPaging.Config.Toml
import MergedPaging.Cursor.Date
import MergedPaging.Cursor.Error
import MergedPaging.Cursor.Id
import MergedPaging.Cursor.Key
import MergedPaging.Cursor.Price
import MergedPaging.Decimal.Basic
import MergedPaging.Decimal.Printer
import MergedPaging.Decimal.Reader
import MergedPaging.Gateway.Basic
import MergedPaging.Gateway.Fetch
import MergedPaging.Json.Basic
import MergedPaging.Json.Printer
import MergedPaging.Json.Reader
import MergedPaging.Json.Record
import MergedPaging.Main
import MergedPaging.Merge
import MergedPaging.Page
import MergedPaging.Page.Json
import MergedPaging.PartitionPoint
import MergedPaging.Proofs.BookmarkText
import MergedPaging.Proofs.CursorText
import MergedPaging.Proofs.Drain
import MergedPaging.Proofs.LostPlace
import MergedPaging.Proofs.Order
import MergedPaging.Proofs.Outage
import MergedPaging.Proofs.Pending
import MergedPaging.Proofs.PlainBackend
import MergedPaging.Proofs.Request
import MergedPaging.Proofs.Round
import MergedPaging.Proofs.Sample
import MergedPaging.Proofs.Streams
import MergedPaging.Proofs.Trimming
import MergedPaging.Proofs.Winners
import MergedPaging.SortOrder
import MergedPaging.SortedMap
import MergedPaging.Source
import MergedPaging.SourcePage
import MergedPaging.Text.Blank
import MergedPaging.Text.Numeral
import MergedPaging.Text.Split
import MergedPaging.Time.Calendar
import MergedPaging.Time.Instant
import MergedPaging.Time.Timestamp
import MergedPaging.Toml.Basic
import MergedPaging.Toml.Quoted
import MergedPaging.Toml.Reader
import MergedPaging.Toml.Scalar
import MergedPaging.Proofs.CursorRoundTrip
import MergedPaging.Proofs.SingleSource
import MergedPaging.Proofs.EqualCursors
import MergedPaging.Proofs.MergeRules
import MergedPaging.Proofs.Concurrent
import MergedPaging.Proofs.FanOut
import MergedPaging.Proofs.Refusal
import MergedPaging.Proofs.Finished
import MergedPaging.Proofs.Splitting
import MergedPaging.Proofs.OrderBook
import MergedPaging.Proofs.CursorOrder
import MergedPaging.Proofs.Reordering
import MergedPaging.Proofs.Skipping
import MergedPaging.Proofs.BookmarkGrammar
import MergedPaging.Proofs.CursorOfTime
import MergedPaging.Proofs.Precedence
import MergedPaging.Proofs.Selection
import MergedPaging.Proofs.DateGrammar
import MergedPaging.Proofs.NumberText
import MergedPaging.Proofs.DocumentText
import MergedPaging.Proofs.SavedConfig
import MergedPaging.Proofs.QuotedText
