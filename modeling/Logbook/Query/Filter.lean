import Logbook.Query.Phrase
import Logbook.Query.Row
import Logbook.Regex.Parser

set_option autoImplicit false

/-! # Filters

A filter is a condition on one row. Words and phrases match where they do not begin or end inside a
longer word; everything else compares whole values. -/

namespace Logbook

/-! ## Patterns -/

/-- A regular expression together with the text it was read from. -/
structure Pattern where
  source : String
  regex : Regex
  parse_source : Regex.parse source = .ok regex
  deriving DecidableEq

namespace Pattern

/-- The pattern with this text. -/
def ofSource (source : String) : Except Regex.Error Pattern :=
  match h : Regex.parse source with
  | .ok regex => .ok ⟨source, regex, h⟩
  | .error e => .error e

/-- The text of the pattern that puts a given one between the ends of the value. -/
def anchoredSource (source : String) : String :=
  "^(?:" ++ source ++ ")$"

/-- The pattern that matches only whole values. -/
def anchored (source : String) : Except Regex.Error Pattern :=
  ofSource (anchoredSource source)

def isMatch (p : Pattern) (value : String) : Bool :=
  p.regex.isMatch value

end Pattern

/-! ## Filters -/

/-- Comparisons with a number. -/
inductive CompareOp where
  | gt | gte | lt | lte
  deriving DecidableEq, Repr

/-- Whether two numbers stand in the relation; nothing compares with a number that is none. -/
def CompareOp.holds : CompareOp → Float → Float → Bool
  | .gt, x, y => x > y
  | .gte, x, y => x ≥ y
  | .lt, x, y => x < y
  | .lte, x, y => x ≤ y

/-- What a stream matcher asks of the value of its label. -/
inductive StreamOp where
  | eq (value : String)
  | ne (value : String)
  | re (pattern : Pattern)
  | notRe (pattern : Pattern)
  deriving DecidableEq

def StreamOp.holds : StreamOp → String → Bool
  | .eq x, v => v == x
  | .ne x, v => v != x
  | .re p, v => p.isMatch v
  | .notRe p, v => !p.isMatch v

/-- A condition on one label of a stream. -/
structure StreamMatcher where
  name : String
  op : StreamOp
  deriving DecidableEq

inductive Filter where
  | all
  | and (filters : List Filter)
  | or (filters : List Filter)
  | not (filter : Filter)
  | phrase (field phrase : String)
  | startsWith (field start : String)
  | exact (field value : String)
  | isIn (field : String) (values : List String)
  | regex (field : String) (pattern : Pattern)
  | range (field : String) (op : CompareOp) (value : Float)
  | time (min max : Timestamp)
  | stream (matchers : List StreamMatcher)

namespace Filter

instance : Inhabited Filter := ⟨.all⟩

/-- The number a value stands for, white space around it aside. -/
def numberOf? (value : String) : Option Float :=
  Decimal.read? (Text.trim value)

mutual

/-- Whether a row satisfies the filter. Stream matchers read the fields of the row, among which the
    tags of its stream are. -/
def accepts : Filter → QueryRow → Bool
  | .all, _ => true
  | .and fs, row => allAccept fs row
  | .or fs, row => anyAccepts fs row
  | .not f, row => !accepts f row
  | .phrase field words, row => Phrase.isIn words (row.value field)
  | .startsWith field start, row => Phrase.startsIn start (row.value field)
  | .exact field value, row => row.value field == value
  | .isIn field values, row => values.contains (row.value field)
  | .regex field pattern, row => pattern.isMatch (row.value field)
  | .range field op value, row =>
    ((row.get? field).bind numberOf?).any fun x => op.holds x value
  | .time lo hi, row => row.timestamp.any fun t => lo ≤ t && t ≤ hi
  | .stream ms, row => ms.all fun m => m.op.holds (row.value m.name)

def allAccept : List Filter → QueryRow → Bool
  | [], _ => true
  | f :: fs, row => accepts f row && allAccept fs row

def anyAccepts : List Filter → QueryRow → Bool
  | [], _ => false
  | f :: fs, row => accepts f row || anyAccepts fs row

end

mutual

/-- Bounds within which the time of every accepted row lies. -/
def timeRange : Filter → Timestamp × Timestamp
  | .time lo hi => (lo, hi)
  | .and fs => timeRangeAll fs Int64.minValue Int64.maxValue
  | _ => (Int64.minValue, Int64.maxValue)

/-- Narrows bounds by those of several filters. -/
def timeRangeAll : List Filter → (lo hi : Timestamp) → Timestamp × Timestamp
  | [], lo, hi => (lo, hi)
  | f :: fs, lo, hi =>
    let (a, b) := timeRange f
    timeRangeAll fs (max lo a) (min hi b)

end

end Filter

end Logbook
