import Logbook.CommandLine

set_option autoImplicit false

/-! # Commands

What the client is asked to do, read from its command line: an option for the address of a node,
which may also stand behind the command, then a command with its own arguments. -/

namespace Logbook.Client

open CommandLine (Flag Grammar Matches UsageError)

/-- The bounds of a search in time, as they are written. -/
structure Bounds where
  start : Option String
  stop : Option String
  deriving DecidableEq, Repr

/-- The format of rows to send. -/
inductive Payload where
  | jsonLines
  | native
  | otlp
  deriving DecidableEq, Repr

inductive Command where
  | query (query : String) (limit : Option Nat) (bounds : Bounds)
  | facets (query : String) (limit : Option Nat) (keepConstFields : Bool) (bounds : Bounds)
  | stats (query : String) (time : Option String)
  | statsRange (query step : String) (bounds : Bounds)
  /-- Sends a file, or what stands on the input. -/
  | ingest (file : Option String) (payload : Payload)
      (streamFields messageFields timeFields : Option String)
  | flush
  deriving DecidableEq, Repr

/-- A command line: the address that it names and the command. -/
structure Invocation where
  addr : Option String
  command : Command
  deriving DecidableEq, Repr

/-! ## Grammars -/

def addrFlag : Flag := ⟨"addr", .text⟩

def commandNames : List String := ["query", "facets", "stats", "stats-range", "ingest", "flush"]

/-- What may stand in front of a command. -/
def grammar : Grammar where
  flags := [addrFlag]
  plain := 0
  commands := "help" :: commandNames
  hasVersion := true

def boundsFlags : List Flag := [⟨"start", .text⟩, ⟨"end", .text⟩]

/-- What may stand behind a command. -/
def grammarOf (name : String) : Grammar :=
  let own : Nat × List Flag := match name with
    | "query" => (1, ⟨"limit", .count⟩ :: boundsFlags)
    | "facets" => (1, ⟨"limit", .count⟩ :: ⟨"keep-const-fields", .none⟩ :: boundsFlags)
    | "stats" => (1, [⟨"time", .text⟩])
    | "stats-range" => (1, ⟨"step", .text⟩ :: boundsFlags)
    | "ingest" => (0, [⟨"file", .path⟩, ⟨"format", .choice ["jsonline", "native", "otlp"]⟩,
        ⟨"stream-fields", .text⟩, ⟨"msg-field", .text⟩, ⟨"time-field", .text⟩])
    | _ => (0, [])
  { flags := addrFlag :: own.2, plain := own.1, commands := [], hasVersion := false }

/-! ## Reading -/

def boundsOf (m : Matches) : Bounds :=
  ⟨m.value? "start", m.value? "end"⟩

/-- The query among the plain arguments. -/
def queryOf (m : Matches) : Except UsageError String :=
  match m.plain with
  | q :: _ => .ok q
  | [] => .error (.missingArgument "QUERY")

def payloadOf (m : Matches) : Payload :=
  match m.value? "format" with
  | some "native" => .native
  | some "otlp" => .otlp
  | _ => .jsonLines

/-- The command of a name with its arguments. -/
def commandOf (name : String) (m : Matches) : Except UsageError Command := do
  match name with
  | "query" => return .query (← queryOf m) (m.count? "limit") (boundsOf m)
  | "facets" =>
    return .facets (m.plain.headD "*") (m.count? "limit") (m.has "keep-const-fields") (boundsOf m)
  | "stats" => return .stats (← queryOf m) (m.value? "time")
  | "stats-range" =>
    return .statsRange (← queryOf m) ((m.value? "step").getD "1m") (boundsOf m)
  | "ingest" =>
    return .ingest (m.value? "file") (payloadOf m) (m.value? "stream-fields") (m.value? "msg-field")
      (m.value? "time-field")
  | "flush" => return .flush
  | _ => throw (.unknownCommand name)

/-- Why there is nothing to carry out, and the command that it is about. -/
structure Refusal where
  command : Option String
  why : UsageError
  deriving DecidableEq, Repr

/-- Reads the arguments of a request for help: the name of a command, or none. -/
def helpOf : List String → Refusal
  | [] => ⟨none, .help⟩
  | name :: rest =>
    if name == "help" && rest.isEmpty then ⟨none, .help⟩
    else if commandNames.contains name && rest.isEmpty then ⟨some name, .help⟩
    else ⟨none, .unknownCommand name⟩

/-- Reads a command line. -/
def Invocation.read (args : List String) : Except Refusal Invocation := do
  let m ← (grammar.read args).mapError (Refusal.mk none)
  match m.command with
  | none => throw ⟨none, .missingCommand⟩
  | some ("help", rest) => throw (helpOf rest)
  | some (name, rest) =>
    let own ← ((grammarOf name).read rest).mapError (Refusal.mk (some name))
    let command ← (commandOf name own).mapError (Refusal.mk (some name))
    return ⟨(own.value? "addr").or (m.value? "addr"), command⟩

end Logbook.Client
