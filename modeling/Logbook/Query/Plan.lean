import Logbook.Storage
import Logbook.Query.Pipe

set_option autoImplicit false

/-! # Plans

A query is answered in two parts. Every shard runs the remote part against its own rows: the filter,
the pipes in front that look at each row by itself, and the first pipe that does not. The partial
results are merged, and the local part runs over the merged rows. -/

namespace Logbook

/-- The part of a query that a shard runs. -/
structure RemoteQuery where
  filter : Filter
  pipes : List Pipe
  terminal : Option Pipe
  minTime : Timestamp
  maxTime : Timestamp

/-- What a shard answers. -/
inductive PartialResult where
  | rows (rows : List QueryRow)
  | stats (groups : PartialStats)
  | facets (counts : PartialFacets)

/-- A query in its two parts. -/
structure Plan where
  remote : RemoteQuery
  locals : List Pipe

namespace Plan

/-- Makes a sort that a limit follows keep no more rows than the limit lets through. -/
def pushLimit (s : SortPipe) : List Pipe → SortPipe
  | .limit n :: _ =>
    { s with limit := some (match s.limit with
        | some m => min m n
        | none => n) }
  | _ => s

/-- Splits the pipes from the first that does not look at each row by itself. A limit there is
    applied by every shard and once more over what they answer. -/
def splitTerminal : List Pipe → Option Pipe × List Pipe
  | [] => (none, [])
  | .limit n :: rest => (some (.limit n), .limit n :: rest)
  | .sort s :: rest => (some (.sort (pushLimit s rest)), rest)
  | p :: rest => (some p, rest)

/-- Splits a query into its two parts. -/
def ofQuery (q : Query) : Plan :=
  let (lo, hi) := q.timeRange
  let (terminal, locals) := splitTerminal (q.pipes.dropWhile Pipe.isRowLocal)
  { remote := {
      filter := q.filter
      pipes := q.pipes.takeWhile Pipe.isRowLocal
      terminal
      minTime := lo
      maxTime := hi }
    locals }

end Plan

namespace RemoteQuery

/-- The stored row as the query sees it, if it passes the filter and the pipes. -/
def select? (q : RemoteQuery) (row : StoredRow) : Option QueryRow :=
  let row := QueryRow.ofStored row
  if q.filter.accepts row then Pipe.applyRowAll q.pipes row else none

/-- What the terminal pipe makes of the selected rows. -/
def collect (q : RemoteQuery) (rows : List QueryRow) : PartialResult :=
  match q.terminal with
  | some (.limit n) => .rows (rows.take n)
  | some (.sort s) => .rows (s.apply rows)
  | some (.stats s) => .stats (rows.foldl (fun (acc : PartialStats) row => acc.addRow s row) [])
  | some (.facets f) =>
    .facets (rows.foldl (fun (acc : PartialFacets) row => acc.addRow f row) .empty)
  | _ => .rows rows

/-- Runs the remote part against a store. -/
def run (q : RemoteQuery) (s : Storage) : PartialResult :=
  q.collect ((s.search q.minTime q.maxTime).filterMap q.select?)

end RemoteQuery

namespace PartialResult

def kindName : PartialResult → String
  | .rows _ => "rows"
  | .stats _ => "stats"
  | .facets _ => "facets"

/-- The rows of every partial result. -/
def rowLists : List PartialResult → Except MergeError (List (List QueryRow))
  | [] => .ok []
  | .rows list :: rest => do return list :: (← rowLists rest)
  | p :: _ => .error (.kind "rows" p.kindName)

/-- The merged groups of partial results. -/
def mergeStats (acc : PartialStats) : List PartialResult → Except MergeError PartialStats
  | [] => .ok acc
  | .stats groups :: rest => do mergeStats (← acc.merge groups) rest
  | p :: _ => .error (.kind "stats" p.kindName)

/-- The merged counts of partial results. -/
def mergeFacets (acc : PartialFacets) : List PartialResult → Except MergeError PartialFacets
  | [] => .ok acc
  | .facets counts :: rest => mergeFacets (acc.merge counts) rest
  | p :: _ => .error (.kind "facets" p.kindName)

/-- The rows that the local part starts from. -/
def merge (terminal : Option Pipe) (partials : List PartialResult) :
    Except MergeError (List QueryRow) :=
  match terminal with
  | some (.stats s) => do return (← mergeStats [] partials).finalize s
  | some (.facets f) => do return (← mergeFacets .empty partials).finalize f
  | some (.sort s) => do return s.merge (← rowLists partials)
  | _ => do return (← rowLists partials).flatten

end PartialResult

/-- Answers a plan from the partial results of the shards. -/
def Plan.finish (p : Plan) (partials : List PartialResult) : Except MergeError (List QueryRow) := do
  return Pipe.applyAll p.locals (← PartialResult.merge p.remote.terminal partials)

end Logbook
