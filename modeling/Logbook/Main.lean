import Logbook.Client.Run
import Logbook.Node.Service
import Std.Time.DateTime.Timestamp

set_option autoImplicit false

/-! # The command line

Runs a command against a node that lives in this process. The node listens at its default address
and keeps its journal in its default directory; no other address is reached. -/

open Logbook

namespace Logbook.Main

/-- The node of this process. -/
def node : Node Storage where
  config := {}
  topology := .single
  store := some id

def storageConfig : StorageConfig where
  retention := node.config.retention
  maxDiskBytes := node.config.maxDiskBytes
  readOnly := node.config.readOnly

/-- The network on which the node listens. The counts end with the process before anyone can ask for
    them, so that no time is measured. -/
def network (now : Timestamp) : Http.Transport (Storage × Counters) :=
  .ofServers [⟨Http.urlOf node.config.listen, node.handle now 0⟩]

/-- The file of the journal. -/
def journalPath : String := node.config.dataPath ++ "/journal.bin"

/-- The clock, in nanoseconds since 1970. -/
def clock : IO Timestamp := do
  let now ← Std.Time.Timestamp.now
  return Timestamp.clamp now.toNanosecondsSinceUnixEpoch.toInt

/-- The bytes of a file, or why there are none. -/
def readFile (path : String) : IO (Except String Bytes) := do
  try
    return .ok (← IO.FS.readBinFile path).toList
  catch e => return .error (toString e)

/-- The file that a command line names, if any. -/
def fileOf (args : List String) : Option String :=
  match Client.Invocation.read args with
  | .ok ⟨_, .ingest file ..⟩ => file
  | _ => none

end Logbook.Main

open Logbook.Main in
def main (args : List String) : IO UInt32 := do
  let now ← clock
  let saved := (← readFile journalPath).toOption.getD []
  let .ok store := Storage.ofFile storageConfig saved now
    | IO.eprintln "Error: cannot open the journal"; return 1
  let input ← match fileOf args, Client.Invocation.read args with
    | none, .ok ⟨_, .ingest ..⟩ => (← IO.getStdin).readBinToEnd
    | _, _ => pure .empty
  let file ← match fileOf args with
    | some path => readFile path
    | none => pure (.error "no file")
  let around : Client.Surroundings :=
    { addr := ← IO.getEnv "LH_ADDR", input := input.toList, file := fun _ => file }
  let (outcome, store, _) := (Client.run (network now) around args).run (store, {})
  IO.FS.createDirAll node.config.dataPath
  IO.FS.writeBinFile journalPath ⟨store.journal.file.toArray⟩
  let stdout ← IO.getStdout
  stdout.write ⟨outcome.output.toArray⟩
  stdout.flush
  IO.eprint outcome.errors
  return UInt32.ofNat outcome.code
