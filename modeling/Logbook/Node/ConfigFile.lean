import Logbook.Toml.Reader

set_option autoImplicit false

/-! # The configuration file

Settings in three sections of a TOML document. What the document leaves out has a default, and what
it says beyond the settings does not count. A section may also be an array of its settings in their
order. -/

namespace Logbook

structure ConfigFile where
  flushIntervalMillis : Nat := 1000
  retention : String := "7d"
  maxDiskBytes : Nat := 0
  readOnly : Bool := false
  maxRequestSize : Nat := 64 * 1024 * 1024
  timeoutMillis : Nat := 30000
  deriving DecidableEq, Repr

namespace ConfigFile

/-- The settings of a section by their names. -/
def settings? (names : List String) : Option Toml → Option (List (String × Toml))
  | none => some []
  | some (.table entries) => some entries
  | some (.arr items) => some (names.zip items)
  | some _ => none

/-- Reads a setting that may be missing. -/
def setting? {α : Type} (entries : List (String × Toml)) (name : String) (default : α)
    (read : Toml → Option α) : Option α :=
  match entries.find? (·.1 == name) with
  | none => some default
  | some (_, v) => read v

def count? : Toml → Option Nat
  | .int n => if 0 ≤ n then some n.toNat else none
  | _ => none

def text? : Toml → Option String
  | .text s => some s
  | _ => none

def bool? : Toml → Option Bool
  | .bool b => some b
  | _ => none

/-- The settings in a document. -/
def ofEntries? (entries : List (String × Toml)) : Option ConfigFile := do
  let part? (name : String) (names : List String) : Option (List (String × Toml)) :=
    settings? names ((entries.find? (·.1 == name)).map (·.2))
  let default : ConfigFile := {}
  let storage ← part? "storage" ["flush_interval_ms", "retention", "max_disk_bytes", "read_only"]
  let insert ← part? "insert" ["max_request_size"]
  let select ← part? "select" ["default_timeout_ms"]
  return {
    flushIntervalMillis :=
      ← setting? storage "flush_interval_ms" default.flushIntervalMillis count?
    retention := ← setting? storage "retention" default.retention text?
    maxDiskBytes := ← setting? storage "max_disk_bytes" default.maxDiskBytes count?
    readOnly := ← setting? storage "read_only" default.readOnly bool?
    maxRequestSize := ← setting? insert "max_request_size" default.maxRequestSize count?
    timeoutMillis := ← setting? select "default_timeout_ms" default.timeoutMillis count? }

/-- Reads the text of a file. -/
def read? (content : String) : Option ConfigFile :=
  (Toml.read? content).bind ofEntries?

end ConfigFile

end Logbook
