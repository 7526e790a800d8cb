import Logbook.SortedMap
import Logbook.Query.Row

set_option autoImplicit false

/-! # Facets

For every field, how often each of its values occurs. Counts of different sets of rows add up. The
result lists the most frequent values of each field, leaving out fields with a single value that
every row has. -/

namespace Logbook

/-- What to list of each field. -/
structure FacetsPipe where
  limit : Nat := 10
  maxValuesPerField : Nat := 1000
  /-- Characters of a value that count. -/
  maxValueLength : Nat := 1000
  keepConstFields : Bool := false
  deriving DecidableEq, Repr

/-- The first characters of a text. -/
def takeChars (s : String) (n : Nat) : String :=
  String.ofList (s.toList.take n)

/-- How often each value of each field occurs among the rows seen. -/
structure PartialFacets where
  rows : Nat
  fields : SortedMap String (SortedMap String Nat)
  deriving DecidableEq, Repr

namespace PartialFacets

/-- No rows seen. -/
def empty : PartialFacets := ⟨0, []⟩

/-- Counts are kept in sixty-four bits. A sum wraps around, as it does in a build without overflow
    checks. -/
def addHits (a b : Nat) : Nat :=
  (a + b) % UInt64.size

/-- Counts one more occurrence of a value. -/
def addValue (values : SortedMap String Nat) (value : String) : SortedMap String Nat :=
  SortedMap.alter values value fun hits => addHits (hits.getD 0) 1

/-- Counts the value of a field. Empty values and times do not count. -/
def addField (pipe : FacetsPipe) (fields : SortedMap String (SortedMap String Nat)) (f : Field) :
    SortedMap String (SortedMap String Nat) :=
  if f.value = "" ∨ f.name = timeName then fields
  else SortedMap.alter fields f.name fun values =>
    addValue (values.getD []) (takeChars f.value pipe.maxValueLength)

/-- Counts the fields of a row. -/
def addRow (p : PartialFacets) (pipe : FacetsPipe) (row : QueryRow) : PartialFacets where
  rows := addHits p.rows 1
  fields := row.fields.foldl (addField pipe) p.fields

/-- The counts of both sets of rows together. -/
def merge (a b : PartialFacets) : PartialFacets where
  rows := addHits a.rows b.rows
  fields := SortedMap.merge (SortedMap.merge addHits) a.fields b.fields

/-- More frequent values first, equally frequent ones in their own order. -/
def valueLe (a b : String × Nat) : Bool :=
  b.2 < a.2 || (a.2 == b.2 && compare a.1 b.1 != .gt)

/-- Whether all rows have the same value. -/
def isConst (p : PartialFacets) (values : SortedMap String Nat) : Bool :=
  match values with
  | [(_, hits)] => hits == p.rows
  | _ => false

/-- The row for one value of a field. -/
def renderValue (name : String) (value : String × Nat) : QueryRow :=
  ⟨none, [⟨"field_name", name⟩, ⟨"field_value", value.1⟩, ⟨"hits", toString value.2⟩]⟩

/-- The most frequent values of each field, fields in the order of their names. -/
def finalize (p : PartialFacets) (pipe : FacetsPipe) : List QueryRow :=
  p.fields.flatMap fun (name, values) =>
    if !pipe.keepConstFields && isConst p values then []
    else ((values.mergeSort valueLe).take (min pipe.limit pipe.maxValuesPerField)).map
      (renderValue name)

end PartialFacets

end Logbook
