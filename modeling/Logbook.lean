import Logbook.ByteSize
import Logbook.Bytes
import Logbook.Chunks
import Logbook.Client.Answers
import Logbook.Client.Command
import Logbook.Client.Run
import Logbook.Client.Table
import Logbook.Client.Usage
import Logbook.Cluster.NodeError
import Logbook.Cluster.Remote
import Logbook.Cluster.Topology
import Logbook.CommandLine
import Logbook.Decimal.Binary
import Logbook.Decimal.Layout
import Logbook.Decimal.Read
import Logbook.Decimal.Shortest
import Logbook.Deflate.Bits
import Logbook.Deflate.Inflate
import Logbook.Deflate.PrefixCode
import Logbook.Deflate.Source
import Logbook.Digest.Adler32
import Logbook.Digest.Crc32
import Logbook.Digest.Sha256
import Logbook.Field
import Logbook.Http.Form
import Logbook.Http.MediaType
import Logbook.Http.Message
import Logbook.Http.Status
import Logbook.Http.Transport
import Logbook.Ingest.Body
import Logbook.Ingest.Classify
import Logbook.Ingest.Error
import Logbook.Ingest.Format
import Logbook.Ingest.JsonLines
import Logbook.Ingest.Params
import Logbook.Ingest.Receive
import Logbook.Journal
import Logbook.Json.Basic
import Logbook.Json.Reader
import Logbook.Json.Writer
import Logbook.Main
import Logbook.Node.Config
import Logbook.Node.ConfigFile
import Logbook.Node.Counters
import Logbook.Node.Service
import Logbook.Otlp.Message
import Logbook.Otlp.Rows
import Logbook.Pieces
import Logbook.Proofs.Cluster.Layout
import Logbook.Proofs.Cluster.Queries
import Logbook.Proofs.Cluster.Replicas
import Logbook.Proofs.Cluster.Topology
import Logbook.Proofs.Codec.RoundTrip
import Logbook.Proofs.Codec.Truncation
import Logbook.Proofs.Codec.Varint
import Logbook.Proofs.Decimal.Order
import Logbook.Proofs.Dedup
import Logbook.Proofs.Digest.Crc32
import Logbook.Proofs.Fields
import Logbook.Proofs.Ingest.AllOrNothing
import Logbook.Proofs.Ingest.Bodies
import Logbook.Proofs.Ingest.Classify
import Logbook.Proofs.Ingest.KeyPaths
import Logbook.Proofs.Ingest.Lines
import Logbook.Proofs.Ingest.Nesting
import Logbook.Proofs.Ingest.OtlpRows
import Logbook.Proofs.Ingest.Reclassify
import Logbook.Proofs.Ingest.Repeated
import Logbook.Proofs.Ingest.Shape
import Logbook.Proofs.Ingest.Tags
import Logbook.Proofs.Journal.Damage
import Logbook.Proofs.Journal.Recovery
import Logbook.Proofs.Journal.Replay
import Logbook.Proofs.Json.Levels
import Logbook.Proofs.Json.Numbers
import Logbook.Proofs.Json.RoundTrip
import Logbook.Proofs.Node.Counting
import Logbook.Proofs.Parsing.BeforeParen
import Logbook.Proofs.Parsing.FieldGroups
import Logbook.Proofs.Parsing.FilterSyntax
import Logbook.Proofs.Parsing.Groups
import Logbook.Proofs.Parsing.Keywords
import Logbook.Proofs.Parsing.Progress
import Logbook.Proofs.Parsing.Reading
import Logbook.Proofs.Parsing.StreamText
import Logbook.Proofs.Parsing.TimeFilters
import Logbook.Proofs.Parsing.Totality
import Logbook.Proofs.Query.AnyOrder
import Logbook.Proofs.Query.Comparison
import Logbook.Proofs.Query.Counts
import Logbook.Proofs.Query.DistinctRows
import Logbook.Proofs.Query.Facets
import Logbook.Proofs.Query.FieldOrder
import Logbook.Proofs.Query.GroupRows
import Logbook.Proofs.Query.MergeTrees
import Logbook.Proofs.Query.Merging
import Logbook.Proofs.Query.Overflow
import Logbook.Proofs.Query.PartialShapes
import Logbook.Proofs.Query.Phrases
import Logbook.Proofs.Query.ScatterGather
import Logbook.Proofs.Query.Selection
import Logbook.Proofs.Query.Sorting
import Logbook.Proofs.Query.Stats
import Logbook.Proofs.Query.StreamMatchers
import Logbook.Proofs.Query.TopValues
import Logbook.Proofs.Query.Windows
import Logbook.Proofs.Regex.Anchors
import Logbook.Proofs.Regex.Classes
import Logbook.Proofs.Regex.Escapes
import Logbook.Proofs.Regex.Groups
import Logbook.Proofs.Regex.Matching
import Logbook.Proofs.Regex.Sequences
import Logbook.Proofs.Rows
import Logbook.Proofs.Search.Confinement
import Logbook.Proofs.Search.Limits
import Logbook.Proofs.Search.Matrix
import Logbook.Proofs.Search.Series
import Logbook.Proofs.SortedMap
import Logbook.Proofs.Storage.History
import Logbook.Proofs.Storage.Operations
import Logbook.Proofs.Storage.Parts
import Logbook.Proofs.Storage.RecordSize
import Logbook.Proofs.Storage.Reopening
import Logbook.Proofs.Storage.Retention
import Logbook.Proofs.Storage.Searching
import Logbook.Proofs.Storage.Sources
import Logbook.Proofs.Stream.Identity
import Logbook.Proofs.Stream.Rendering
import Logbook.Proofs.Text.Blanks
import Logbook.Proofs.Time.Calendar
import Logbook.Proofs.Time.RoundTrip
import Logbook.Proofs.Time.Units
import Logbook.Proofs.Wire.Filters
import Logbook.Proofs.Wire.Request
import Logbook.Proofs.Wire.Result
import Logbook.Proofs.Wire.SentQueries
import Logbook.Proofs.Wire.SentResults
import Logbook.Proofs.Wire.Values
import Logbook.Protobuf
import Logbook.Query.Cursor
import Logbook.Query.Document
import Logbook.Query.Facets
import Logbook.Query.Filter
import Logbook.Query.Overflow
import Logbook.Query.Parser
import Logbook.Query.Phrase
import Logbook.Query.Pipe
import Logbook.Query.Plan
import Logbook.Query.Row
import Logbook.Query.Sort
import Logbook.Query.Stats
import Logbook.Query.Wire.Filter
import Logbook.Query.Wire.Request
import Logbook.Query.Wire.Result
import Logbook.Query.Wire.Value
import Logbook.Regex.Basic
import Logbook.Regex.Bracket
import Logbook.Regex.Escape
import Logbook.Regex.Flags
import Logbook.Regex.Group
import Logbook.Regex.Parser
import Logbook.Regex.Property
import Logbook.Regex.Size
import Logbook.Row
import Logbook.RowCodec
import Logbook.Search.Arguments
import Logbook.Search.Endpoint
import Logbook.Search.FacetGroups
import Logbook.Search.Run
import Logbook.Search.Series
import Logbook.SortedMap
import Logbook.Storage
import Logbook.Stream
import Logbook.Text.Base64
import Logbook.Text.CaseFold
import Logbook.Text.Category
import Logbook.Text.Class
import Logbook.Text.Quoted
import Logbook.Text.Replacement
import Logbook.Text.Script
import Logbook.Time.Calendar
import Logbook.Time.Duration
import Logbook.Time.Epoch
import Logbook.Time.Instant
import Logbook.Toml.Basic
import Logbook.Toml.Reader
import Logbook.Toml.Scalar
import Logbook.Varint
