import Logbook.Chunks
import Logbook.Journal

set_option autoImplicit false

/-! # Storage

A row added to the store is appended to the journal and waits among the pending rows; a flush makes
the pending rows visible as a part. Searches see visible rows only. Rows older than the retention
are dropped when the store is opened and when it is flushed, and whenever a flush or an opening
drops rows the journal is written anew without them. -/

namespace Logbook

/-- How a store behaves. -/
structure StorageConfig where
  /-- Nanoseconds after which a row expires. -/
  retention : Nat
  /-- Journal size at which writes are refused; zero for no limit. -/
  maxDiskBytes : Nat
  readOnly : Bool
  deriving DecidableEq, Repr, Inhabited

/-! ## Parts -/

/-- Visible rows sorted by stream, then time, with the bounds of their times. -/
structure Part where
  rows : List StoredRow
  minTime : Timestamp
  maxTime : Timestamp
  minTime_le : ∀ r ∈ rows, minTime ≤ r.timestamp
  le_maxTime : ∀ r ∈ rows, r.timestamp ≤ maxTime
  deriving DecidableEq, Repr

/-- The part without rows. -/
instance : Inhabited Part := ⟨⟨[], Int64.maxValue, Int64.minValue, nofun, nofun⟩⟩

namespace Part

/-- The order of rows within a part. -/
def rowLe (a b : StoredRow) : Bool :=
  if a.streamId = b.streamId then a.timestamp ≤ b.timestamp else a.streamId.le b.streamId

/-- The earliest time among rows and a given one. -/
def earliest (rows : List StoredRow) (t : Timestamp) : Timestamp :=
  rows.foldl (fun t r => min t r.timestamp) t

/-- The latest time among rows and a given one. -/
def latest (rows : List StoredRow) (t : Timestamp) : Timestamp :=
  rows.foldl (fun t r => max t r.timestamp) t

theorem earliest_le (rows : List StoredRow) (t : Timestamp) :
    earliest rows t ≤ t ∧ ∀ r ∈ rows, earliest rows t ≤ r.timestamp := by
  induction rows generalizing t with
  | nil => exact ⟨Int64.le_refl _, nofun⟩
  | cons x rest ih =>
    obtain ⟨hmin, hrest⟩ := ih (min t x.timestamp)
    refine ⟨Int64.le_trans hmin Std.min_le_left, fun r hr => ?_⟩
    rcases List.mem_cons.1 hr with rfl | hr
    · exact Int64.le_trans hmin Std.min_le_right
    · exact hrest r hr

theorem le_max_time (t u : Timestamp) : t ≤ max t u ∧ u ≤ max t u := by
  show t ≤ (if t ≤ u then u else t) ∧ u ≤ (if t ≤ u then u else t)
  split
  · next h => exact ⟨h, Int64.le_refl _⟩
  · next h => exact ⟨Int64.le_refl _, (Int64.le_total t u).resolve_left h⟩

theorem le_latest (rows : List StoredRow) (t : Timestamp) :
    t ≤ latest rows t ∧ ∀ r ∈ rows, r.timestamp ≤ latest rows t := by
  induction rows generalizing t with
  | nil => exact ⟨Int64.le_refl _, nofun⟩
  | cons x rest ih =>
    obtain ⟨hmax, hrest⟩ := ih (max t x.timestamp)
    obtain ⟨hleft, hright⟩ := le_max_time t x.timestamp
    refine ⟨Int64.le_trans hleft hmax, fun r hr => ?_⟩
    rcases List.mem_cons.1 hr with rfl | hr
    · exact Int64.le_trans hright hmax
    · exact hrest r hr

/-- The part of these rows. Rows of one stream and time keep their order. -/
def ofRows (rows : List StoredRow) : Part where
  rows := rows.mergeSort rowLe
  minTime := earliest rows Int64.maxValue
  maxTime := latest rows Int64.minValue
  minTime_le r h := (earliest_le rows _).2 r (List.mem_mergeSort.1 h)
  le_maxTime r h := (le_latest rows _).2 r (List.mem_mergeSort.1 h)

/-- The rows with a time between two bounds, both included. -/
def search (p : Part) (lo hi : Timestamp) : List StoredRow :=
  if p.maxTime < lo ∨ hi < p.minTime then []
  else p.rows.filter fun r => lo ≤ r.timestamp && r.timestamp ≤ hi

end Part

/-! ## The store -/

structure Storage where
  config : StorageConfig
  journal : Journal
  /-- Rows in the journal that no search sees yet. -/
  pending : List StoredRow
  visible : List Part
  readOnly : Bool
  /-- Rows added since the store was opened. -/
  added : Nat
  deriving DecidableEq, Repr, Inhabited

/-- Counts that describe a store. -/
structure StorageStats where
  pending : Nat
  visible : Nat
  parts : Nat
  journalBytes : Nat
  added : Nat
  deriving DecidableEq, Repr

namespace Storage

/-- Number of parts beyond which a flush merges them all. -/
def maxParts : Nat := 16

/-- Rows in one record of a journal that is written anew. -/
def compactBatch : Nat := 4096

/-- Rows from before this time have expired. -/
def cutoff (now : Timestamp) (retention : Nat) : Timestamp :=
  Timestamp.clamp (now.toInt - min (retention : Int) Int64.maxValue.toInt)

/-- One part of these rows, or no part at all if there are none. -/
def partsOf (rows : List StoredRow) : List Part :=
  if rows.isEmpty then [] else [Part.ofRows rows]

/-- The journal that holds exactly these rows. -/
def journalOf (rows : List StoredRow) : Except StoreError Journal :=
  Journal.ofPayloads ((chunks compactBatch rows).map RowCodec.encodeStored)

/-- Opens the store whose journal file is given. Its rows are visible at once. -/
def ofFile (config : StorageConfig) (file : Bytes) (now : Timestamp) :
    Except StoreError Storage := do
  let (journal, batches) := Journal.ofFile file
  let replayed := batches.flatten.map (StoredRow.ofDecoded · 0)
  let limit := cutoff now config.retention
  let rows := replayed.filter (limit ≤ ·.timestamp)
  let journal ← if rows.length < replayed.length then journalOf rows else .ok journal
  return {
    config, journal
    pending := []
    visible := partsOf rows
    readOnly := config.readOnly
    added := 0 }

/-- Whether the store takes writes, and why not. -/
def canWrite (s : Storage) : Except StoreError Unit :=
  if s.readOnly then .error (.cannotWrite .readOnly)
  else if 0 < s.config.maxDiskBytes ∧ s.config.maxDiskBytes ≤ s.journal.size then
    .error (.cannotWrite (.full s.journal.size s.config.maxDiskBytes))
  else .ok ()

/-- Records rows in the journal and lets them wait for the next flush: all of them or none. -/
def add (s : Storage) (rows : List StoredRow) : Except StoreError Storage := do
  s.canWrite
  if rows.isEmpty then return s
  let journal ← s.journal.append (RowCodec.encodeStored rows)
  return { s with
    journal
    pending := s.pending ++ rows
    added := s.added + rows.length }

/-- All visible rows, part by part. -/
def visibleRows (s : Storage) : List StoredRow :=
  s.visible.flatMap (·.rows)

/-- The visible parts and, behind them, a part of the pending rows. -/
def allParts (s : Storage) : List Part :=
  s.visible ++ partsOf s.pending

/-- One part of the rows of several that have not expired. -/
def mergeParts (limit : Timestamp) (parts : List Part) : List Part :=
  partsOf ((parts.flatMap (·.rows)).filter (limit ≤ ·.timestamp))

/-- The parts after a flush. All parts are merged if one of them may hold an expired row or if there
    are too many. -/
def flushedParts (s : Storage) (limit : Timestamp) : List Part :=
  if s.allParts.any (·.minTime < limit) || maxParts < s.allParts.length then
    mergeParts limit s.allParts
  else s.allParts

/-- The journal after a flush: written anew if rows have expired and if that succeeds. -/
def flushedJournal (s : Storage) (limit : Timestamp) : Journal :=
  if s.allParts.any (·.minTime < limit) then
    match journalOf ((s.flushedParts limit).flatMap (·.rows)) with
    | .ok j => j
    | .error _ => s.journal
  else s.journal

/-- Makes the pending rows visible and drops expired rows; also gives the number of rows that were
    pending. -/
def flush (s : Storage) (now : Timestamp) : Storage × Nat :=
  let limit := cutoff now s.config.retention
  ({ s with
      journal := s.flushedJournal limit
      pending := []
      visible := s.flushedParts limit },
    s.pending.length)

/-- Closes the store, after which its journal can be opened again. -/
def close (s : Storage) (now : Timestamp) : Storage :=
  (s.flush now).1

/-- The visible rows with a time between two bounds, both included, part by part. -/
def search (s : Storage) (lo hi : Timestamp) : List StoredRow :=
  s.visible.flatMap (·.search lo hi)

def setReadOnly (s : Storage) (on : Bool) : Storage :=
  { s with readOnly := on }

def stats (s : Storage) : StorageStats where
  pending := s.pending.length
  visible := s.visibleRows.length
  parts := s.visible.length
  journalBytes := s.journal.size
  added := s.added

end Storage

end Logbook
