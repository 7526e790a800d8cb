import Logbook.Decimal.Read
import Logbook.Query.Row

set_option autoImplicit false

/-! # Facets by field

The rows that facets come to, each a field, one of its values and the hits of the value, grouped so
that neighbours with one field share its name. -/

namespace Logbook

/-- The values of one field with their hits. -/
structure FacetGroup where
  field : String
  values : List (String × Nat)
  deriving DecidableEq, Repr

namespace FacetGroup

/-- The hits that a row counts; a row without a number counts none. -/
def hits (row : QueryRow) : Nat :=
  (Decimal.readUInt64? (row.value "hits")).getD 0

/-- Puts a row in front of groups: into the first if that is of the same field. -/
def push (row : QueryRow) (groups : List FacetGroup) : List FacetGroup :=
  let field := row.value "field_name"
  let value := (row.value "field_value", hits row)
  match groups with
  | [] => [⟨field, [value]⟩]
  | g :: rest =>
    if g.field = field then { g with values := value :: g.values } :: rest
    else ⟨field, [value]⟩ :: g :: rest

/-- The groups of rows, in the order of the rows. -/
def ofRows (rows : List QueryRow) : List FacetGroup :=
  rows.foldr push []

def toJson (g : FacetGroup) : Json :=
  .obj [("field_name", .str g.field),
    ("values", .arr (g.values.map fun (value, hits) =>
      .obj [("field_value", .str value), ("hits", .int hits)]))]

/-- The answer that lists groups. -/
def listToJson (groups : List FacetGroup) : Json :=
  .obj [("facets", .arr (groups.map toJson))]

end FacetGroup

end Logbook
