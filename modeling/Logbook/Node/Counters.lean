import Logbook.Decimal.Layout
import Logbook.Storage

set_option autoImplicit false

/-! # Counters

What a node counts while it serves, and the text in which it reports the counts. Every request is
counted as it arrives, a failed one once more as a failure, and rows once they are stored. -/

namespace Logbook

/-! ## Counts -/

/-- The paths on which rows arrive. -/
inductive IngestPath where
  | opentelemetry
  | jsonLines
  | native
  /-- From nodes that took the rows in on another path. -/
  | forwarded
  deriving DecidableEq, Repr

namespace IngestPath

def all : List IngestPath := [.opentelemetry, .jsonLines, .native, .forwarded]

/-- The path of a request's target. -/
def target : IngestPath → String
  | .opentelemetry => "/insert/opentelemetry/v1/logs"
  | .jsonLines => "/insert/jsonline"
  | .native => "/insert/native"
  | .forwarded => "/internal/insert"

/-- The name of the format on that path. -/
def formatName : IngestPath → String
  | .opentelemetry => "opentelemetry"
  | .jsonLines => "jsonline"
  | .native | .forwarded => "native"

end IngestPath

/-- Counts of one path. -/
structure IngestCounts where
  requests : Nat := 0
  errors : Nat := 0
  rows : Nat := 0
  skipped : Nat := 0
  /-- Microseconds spent on requests that ended with success. -/
  micros : Nat := 0
  deriving DecidableEq, Repr

/-- All counts of a node. -/
structure Counters where
  opentelemetry : IngestCounts := {}
  jsonLines : IngestCounts := {}
  native : IngestCounts := {}
  forwarded : IngestCounts := {}
  searches : Nat := 0
  failedSearches : Nat := 0
  deriving DecidableEq, Repr

namespace Counters

/-- The counts of a path. -/
def path (c : Counters) : IngestPath → IngestCounts
  | .opentelemetry => c.opentelemetry
  | .jsonLines => c.jsonLines
  | .native => c.native
  | .forwarded => c.forwarded

/-- Changes the counts of a path. -/
def update (c : Counters) (path : IngestPath) (f : IngestCounts → IngestCounts) : Counters :=
  match path with
  | .opentelemetry => { c with opentelemetry := f c.opentelemetry }
  | .jsonLines => { c with jsonLines := f c.jsonLines }
  | .native => { c with native := f c.native }
  | .forwarded => { c with forwarded := f c.forwarded }

def countRequest (path : IngestPath) (c : Counters) : Counters :=
  c.update path fun p => { p with requests := p.requests + 1 }

def countError (path : IngestPath) (c : Counters) : Counters :=
  c.update path fun p => { p with errors := p.errors + 1 }

def countRows (path : IngestPath) (n : Nat) (c : Counters) : Counters :=
  c.update path fun p => { p with rows := p.rows + n }

def countSkipped (path : IngestPath) (n : Nat) (c : Counters) : Counters :=
  c.update path fun p => { p with skipped := p.skipped + n }

/-- Adds the time that a request took which ended with success. -/
def countMicros (path : IngestPath) (n : Nat) (c : Counters) : Counters :=
  c.update path fun p => { p with micros := p.micros + n }

def countSearch (c : Counters) : Counters :=
  { c with searches := c.searches + 1 }

def countFailedSearch (c : Counters) : Counters :=
  { c with failedSearches := c.failedSearches + 1 }

/-! ## Report -/

/-- Counts of one kind, with their name, what they are and how a path's count is written. -/
structure Family where
  name : String
  help : String
  value : IngestCounts → String

/-- The families of counts that every path has. -/
def families : List Family := [
  ⟨"lh_http_requests_total", "Ingestion requests received", fun p => toString p.requests⟩,
  ⟨"lh_http_errors_total", "Ingestion requests rejected", fun p => toString p.errors⟩,
  ⟨"lh_rows_ingested_total", "Rows accepted by ingestion", fun p => toString p.rows⟩,
  ⟨"lh_lines_skipped_total", "Malformed lines skipped", fun p => toString p.skipped⟩,
  ⟨"lh_http_request_duration_seconds_sum", "Time spent serving successful ingestion requests",
    fun p => Decimal.Layout.plain.render (Float.ofNat p.micros / 1e6)⟩]

/-- The two lines that come before the counts of a family. -/
def header (name help kind : String) : List String :=
  ["# HELP " ++ name ++ " " ++ help, "# TYPE " ++ name ++ " " ++ kind]

/-- The lines of a family. -/
def familyLines (c : Counters) (f : Family) : List String :=
  header f.name f.help "counter" ++ IngestPath.all.map fun path =>
    f.name ++ "\x7bpath=\"" ++ path.target ++ "\",format=\"" ++ path.formatName ++ "\"\x7d "
      ++ f.value (c.path path)

/-- The lines that describe a store. -/
def storeLines (s : StorageStats) : List String :=
  [("lh_storage_pending_rows", s.pending), ("lh_storage_visible_rows", s.visible),
    ("lh_storage_parts", s.parts), ("lh_storage_journal_bytes", s.journalBytes)].flatMap
      (fun (name, n) => ["# TYPE " ++ name ++ " gauge", name ++ " " ++ toString n])
    ++ ["# TYPE lh_storage_rows_added_total counter",
      "lh_storage_rows_added_total " ++ toString s.added]

/-- The lines of a report: all counts, and what describes the node's own store if it has one. -/
def reportLines (c : Counters) (store : Option StorageStats) : List String :=
  families.flatMap c.familyLines
    ++ header "lh_select_requests_total" "Query requests received" "counter"
    ++ ["lh_select_requests_total " ++ toString c.searches]
    ++ header "lh_select_errors_total" "Query requests failed" "counter"
    ++ ["lh_select_errors_total " ++ toString c.failedSearches]
    ++ (store.map storeLines).getD []

/-- The report as a text. -/
def report (c : Counters) (store : Option StorageStats) : String :=
  String.join ((c.reportLines store).map (· ++ "\n"))

end Counters

end Logbook
