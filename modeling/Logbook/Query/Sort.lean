import Logbook.Query.Row

set_option autoImplicit false

/-! # Sorting rows

Rows are compared key by key: as numbers if both values are numbers, by time if the key is the time
and both rows have one, and as text otherwise. -/

namespace Logbook

/-- A field to sort by. -/
structure SortKey where
  field : String
  desc : Bool
  deriving DecidableEq, Repr

/-- How to sort rows: without keys by time. -/
structure SortPipe where
  keys : List SortKey
  desc : Bool
  limit : Option Nat
  deriving DecidableEq, Repr

namespace SortPipe

/-- Compares numbers; a number that is none counts as equal to every number. -/
def compareNumbers (x y : Float) : Ordering :=
  if x < y then .lt else if x > y then .gt else .eq

/-- Compares two values. -/
def compareValues (x y : String) : Ordering :=
  match Decimal.read? x, Decimal.read? y with
  | some a, some b => compareNumbers a b
  | _, _ => compare x y

/-- Compares one field of two rows. -/
def compareField (a b : QueryRow) (field : String) : Ordering :=
  if field = timeName then
    match a.timestamp, b.timestamp with
    | some x, some y => compare x.toInt y.toInt
    | _, _ => compareValues (a.value field) (b.value field)
  else compareValues (a.value field) (b.value field)

def reverseIf (desc : Bool) (o : Ordering) : Ordering :=
  if desc then o.swap else o

/-- Compares two rows by the first of the keys on which they differ. -/
def compareKeys : List SortKey → QueryRow → QueryRow → Ordering
  | [], _, _ => .eq
  | key :: keys, a, b =>
    match reverseIf key.desc (compareField a b key.field) with
    | .eq => compareKeys keys a b
    | o => o

/-- The keys, or the time if there are none. -/
def effectiveKeys (s : SortPipe) : List SortKey :=
  if s.keys.isEmpty then [⟨timeName, false⟩] else s.keys

def compareRows (s : SortPipe) (a b : QueryRow) : Ordering :=
  reverseIf s.desc (compareKeys s.effectiveKeys a b)

/-- Whether a row does not follow another. -/
def le (s : SortPipe) (a b : QueryRow) : Bool :=
  s.compareRows a b != .gt

/-- Puts a row behind the last of the sorted rows that does not follow it; `front` holds the rows
    before the place, last first. -/
def insertBehind (s : SortPipe) (row : QueryRow) : (front back : List QueryRow) → List QueryRow
  | [], back => row :: back
  | r :: front, back =>
    if s.compareRows row r == .lt then insertBehind s row front (r :: back)
    else (r :: front).reverse ++ row :: back

/-- Sorts by inserting one row after the other. -/
def insertionSort (s : SortPipe) (rows : List QueryRow) : List QueryRow :=
  rows.foldl (fun sorted row => insertBehind s row sorted.reverse []) []

/-- Length up to which rows are sorted by insertion. -/
def insertionLength : Nat := 20

/-- Sorts rows; rows that compare as equal keep their order. Short lists are sorted by insertion and
    long ones by merging, which makes a difference only for rows that the keys do not order
    consistently. -/
def sortRows (s : SortPipe) (rows : List QueryRow) : List QueryRow :=
  if rows.length ≤ insertionLength then s.insertionSort rows
  else rows.mergeSort s.le

/-- The first rows up to the limit. -/
def truncate (s : SortPipe) (rows : List QueryRow) : List QueryRow :=
  match s.limit with
  | some n => rows.take n
  | none => rows

/-- Sorts rows and keeps those within the limit. -/
def apply (s : SortPipe) (rows : List QueryRow) : List QueryRow :=
  s.truncate (s.sortRows rows)

/-- The place and the head of the list whose head comes first, `best` being the choice among the
    lists before place `i`. Of equal heads the earlier one is taken. -/
def leastHead? (s : SortPipe) (best : Option (Nat × QueryRow)) (i : Nat) :
    List (List QueryRow) → Option (Nat × QueryRow)
  | [] => best
  | [] :: lists => leastHead? s best (i + 1) lists
  | (row :: _) :: lists =>
    match best with
    | none => leastHead? s (some (i, row)) (i + 1) lists
    | some (j, b) =>
      if s.le b row then leastHead? s (some (j, b)) (i + 1) lists
      else leastHead? s (some (i, row)) (i + 1) lists

/-- Merges sorted lists; of equal rows those of earlier lists come first. `fuel` is the number of
    rows wanted. -/
def mergeLists (s : SortPipe) : (fuel : Nat) → List (List QueryRow) → List QueryRow
  | 0, _ => []
  | fuel + 1, lists =>
    match s.leastHead? none 0 lists with
    | none => []
    | some (i, row) => row :: mergeLists s fuel (lists.modify i (List.drop 1))

/-- Merges sorted lists and keeps the rows within the limit. -/
def merge (s : SortPipe) (lists : List (List QueryRow)) : List QueryRow :=
  let total := lists.flatten.length
  mergeLists s (match s.limit with
    | some n => min n total
    | none => total) lists

end SortPipe

end Logbook
