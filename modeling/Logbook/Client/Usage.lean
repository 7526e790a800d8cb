set_option autoImplicit false

/-! # Help

What the client says about itself and its commands. -/

namespace Logbook.Client

def versionText : String := "lh 0.1.0\n"

/-- Entries with what they are, in two columns. -/
def columns (entries : List (String × String)) : List String :=
  let width := (entries.map fun e => e.1.length).foldl max 0
  entries.map fun (name, what) =>
    "  " ++ name ++ String.ofList (List.replicate (width - name.length + 2) ' ') ++ what

def addrEntry : String × String :=
  ("    --addr <ADDR>", "Node address. Defaults to $LH_ADDR or http://127.0.0.1:9428")

def helpEntry : String × String := ("-h, --help", "Print help")

def boundsEntries : List (String × String) := [
  ("    --start <START>", "Lower time bound, e.g. \x601h\x60 (ago) or RFC 3339"),
  ("    --end <END>", "Upper time bound")]

/-- A command with what it does, how it is used, its arguments and its options. -/
structure CommandHelp where
  name : String
  about : String
  usage : String
  arguments : List (String × String)
  options : List (String × String)

def commandHelps : List CommandHelp := [
  ⟨"query", "Run a LogsQL query and print the rows", "[OPTIONS] <QUERY>", [("<QUERY>", "")],
    ("    --limit <LIMIT>", "") :: boundsEntries⟩,
  ⟨"facets", "Most frequent values per field", "[OPTIONS] [QUERY]", [("[QUERY]", "[default: *]")],
    ("    --limit <LIMIT>", "Values to keep per field")
      :: ("    --keep-const-fields", "Also show fields with a single value across all rows")
      :: boundsEntries⟩,
  ⟨"stats", "Evaluate a stats query at one point in time", "[OPTIONS] <QUERY>", [("<QUERY>", "")],
    [("    --time <TIME>", "Evaluation time; defaults to now")]⟩,
  ⟨"stats-range", "Evaluate a stats query over a range, bucketed by \x60step\x60",
    "[OPTIONS] <QUERY>", [("<QUERY>", "")],
    ("    --step <STEP>", "[default: 1m]") :: boundsEntries⟩,
  ⟨"ingest", "Send logs to an insert endpoint", "[OPTIONS]", [], [
    ("    --file <FILE>", "File to read; stdin when absent"),
    ("    --format <FORMAT>", "[default: jsonline] [possible values: jsonline, native, otlp]"),
    ("    --stream-fields <STREAM_FIELDS>", "Comma-separated stream fields"),
    ("    --msg-field <MSG_FIELD>", "Comma-separated message fields, highest priority first"),
    ("    --time-field <TIME_FIELD>", "Comma-separated timestamp fields, highest priority first")]⟩,
  ⟨"flush", "Make every ingested row searchable", "[OPTIONS]", [], []⟩]

def joinLines (lines : List String) : String :=
  String.join (lines.map (· ++ "\n"))

/-- The help for one command. -/
def CommandHelp.text (h : CommandHelp) : String :=
  joinLines <| [h.about, "", "Usage: lh " ++ h.name ++ " " ++ h.usage, ""]
    ++ (if h.arguments.isEmpty then [] else "Arguments:" :: columns h.arguments ++ [""])
    ++ "Options:" :: columns (addrEntry :: h.options ++ [helpEntry])

/-- The help for all commands. -/
def generalHelp : String :=
  joinLines <| ["Loggerhead: command-line client", "", "Usage: lh [OPTIONS] <COMMAND>", "",
      "Commands:"]
    ++ columns (commandHelps.map (fun h => (h.name, h.about))
      ++ [("help", "Print this message or the help of the given subcommand(s)")])
    ++ ["", "Options:"]
    ++ columns [addrEntry, helpEntry, ("-V, --version", "Print version")]

/-- The help for a command, or for all. -/
def helpText (command : Option String) : String :=
  match command.bind fun name => commandHelps.find? (·.name == name) with
  | some h => h.text
  | none => generalHelp

end Logbook.Client
