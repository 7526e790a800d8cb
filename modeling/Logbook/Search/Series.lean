import Logbook.Query.Pipe
import Logbook.Time.Instant

set_option autoImplicit false

/-! # Series of statistics

Rows of statistics as samples: the fields that rows are grouped by are the labels of a sample, and
every result is a sample of its own under the name of the result. Samples with the same labels make
up a series. -/

namespace Logbook

/-- Which fields of a row are labels and which are values. -/
structure SampleLayout where
  labels : List String
  values : List String
  deriving DecidableEq, Repr

namespace SampleLayout

/-- The layout of the rows that statistics come to. The time is no label. -/
def ofStats (s : StatsPipe) : SampleLayout where
  labels := (s.groupBy.map (·.name)).filter (· != timeName)
  values := s.funcs.map (·.result)

/-- The labels of a value in a row, its own name first. -/
def metric (l : SampleLayout) (row : QueryRow) (name : String) : Json :=
  .obj <| l.labels.foldl
    (fun members label => Json.putMember members label (.str (row.value label)))
    [("__name__", .str name)]

/-- The samples in a row, one for every value that the row has. -/
def samples (l : SampleLayout) (row : QueryRow) : List (Json × String) :=
  l.values.filterMap fun name => (row.get? name).map fun value => (l.metric row name, value)

end SampleLayout

/-- Samples with the same labels. -/
structure Series where
  metric : Json
  points : List (Timestamp × String)

namespace Series

/-- The series by the text of their labels. -/
abbrev Table := SortedMap String Series

/-- Adds a sample to its series. -/
def addSample (time : Timestamp) (table : Table) (sample : Json × String) : Table :=
  SortedMap.alter table sample.1.render fun
    | none => ⟨sample.1, [(time, sample.2)]⟩
    | some s => { s with points := s.points ++ [(time, sample.2)] }

/-- Adds the samples of a row; a row without a time has none. -/
def addRow (l : SampleLayout) (table : Table) (row : QueryRow) : Table :=
  match row.timestamp with
  | none => table
  | some t => (l.samples row).foldl (addSample t) table

/-- The series of rows, in the order of their labels' text. -/
def ofRows (l : SampleLayout) (rows : List QueryRow) : List Series :=
  (rows.foldl (addRow l) []).map (·.2)

/-- The points by time; points of one time keep their order. -/
def sorted (s : Series) : List (Timestamp × String) :=
  s.points.mergeSort fun a b => a.1 ≤ b.1

/-- A value at a time. -/
def pointToJson (time : Timestamp) (value : String) : Json :=
  .arr [Time.unixSeconds time, .str value]

def toJson (s : Series) : Json :=
  .obj [("metric", s.metric),
    ("values", .arr (s.sorted.map fun (time, value) => pointToJson time value))]

/-- A single sample at a time. -/
def sampleToJson (time : Timestamp) (sample : Json × String) : Json :=
  .obj [("metric", sample.1), ("value", pointToJson time sample.2)]

/-- The answer that lists results of a kind. -/
def listToJson (kind : String) (results : List Json) : Json :=
  .obj [("status", .str "success"),
    ("data", .obj [("resultType", .str kind), ("result", .arr results)])]

end Series

end Logbook
