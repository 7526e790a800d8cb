import Logbook.Query.Filter
import Logbook.Query.Sort
import Logbook.Query.Stats
import Logbook.Query.Facets

set_option autoImplicit false

/-! # Pipes

A pipe turns rows into rows. Filtering and selecting fields look at each row by itself; the other
pipes need all rows. A query is a filter with pipes behind it. -/

namespace Logbook

inductive Pipe where
  | filter (condition : Filter)
  | fields (names : List String)
  | limit (n : Nat)
  | sort (pipe : SortPipe)
  | stats (pipe : StatsPipe)
  | facets (pipe : FacetsPipe)

namespace Pipe

instance : Inhabited Pipe := ⟨.limit 0⟩

/-- Whether the pipe looks at each row by itself. -/
def isRowLocal : Pipe → Bool
  | .filter _ | .fields _ => true
  | _ => false

/-- What a pipe that looks at each row by itself makes of a row. -/
def applyRow (p : Pipe) (row : QueryRow) : Option QueryRow :=
  match p with
  | .filter condition => if condition.accepts row then some row else none
  | .fields names => some (row.project names)
  | _ => some row

/-- What several such pipes make of a row. -/
def applyRowAll : List Pipe → QueryRow → Option QueryRow
  | [], row => some row
  | p :: ps, row => (p.applyRow row).bind (applyRowAll ps)

def apply (p : Pipe) (rows : List QueryRow) : List QueryRow :=
  match p with
  | .filter _ | .fields _ => rows.filterMap p.applyRow
  | .limit n => rows.take n
  | .sort s => s.apply rows
  | .stats s => (rows.foldl (fun (acc : PartialStats) row => acc.addRow s row) []).finalize s
  | .facets f =>
    (rows.foldl (fun (acc : PartialFacets) row => acc.addRow f row) .empty).finalize f

/-- Sends rows through pipes, one after the other. -/
def applyAll (ps : List Pipe) (rows : List QueryRow) : List QueryRow :=
  ps.foldl (fun rows p => p.apply rows) rows

end Pipe

/-- A filter with pipes behind it. -/
structure Query where
  filter : Filter
  pipes : List Pipe
  deriving Inhabited

namespace Query

/-- Narrows the query by another filter. -/
def addFilter (q : Query) (f : Filter) : Query :=
  { q with
    filter := match q.filter with
      | .all => f
      | .and fs => .and (fs ++ [f])
      | other => .and [other, f] }

/-- Narrows the query to times between two bounds, both included. -/
def addTimeRange (q : Query) (lo hi : Timestamp) : Query :=
  if lo ≠ Int64.minValue ∨ hi ≠ Int64.maxValue then q.addFilter (.time lo hi) else q

/-- Bounds within which the times of all results lie. -/
def timeRange (q : Query) : Timestamp × Timestamp :=
  q.filter.timeRange

/-- Replaces the first statistics among pipes that come last first. -/
def mapFirstStats? (f : StatsPipe → StatsPipe) : List Pipe → Option (List Pipe)
  | [] => none
  | .stats s :: rest => some (.stats (f s) :: rest)
  | p :: rest => (mapFirstStats? f rest).map (p :: ·)

/-- The last statistics of the query. -/
def lastStats? (q : Query) : Option StatsPipe :=
  q.pipes.reverse.findSome? fun
    | .stats s => some s
    | _ => none

/-- Replaces the last statistics of the query. -/
def mapLastStats? (q : Query) (f : StatsPipe → StatsPipe) : Option Query :=
  (mapFirstStats? f q.pipes.reverse).map fun ps => { q with pipes := ps.reverse }

end Query

end Logbook
