import Logbook.Decimal.Read
import Logbook.Pieces

set_option autoImplicit false

/-! # Command lines

A command line is a list of arguments: options, which start with two hyphens and may have a value,
and plain arguments. The value of an option stands behind an equals sign or is the next argument,
unless that is an option itself. Two hyphens alone make all arguments behind them plain. Arguments
are read from the left, and what is wrong with an option shows once the next one is read. -/

namespace Logbook.CommandLine

/-! ## Grammars -/

/-- What the value of an option may be. -/
inductive ValueKind where
  /-- No value: the option is there or not. -/
  | none
  /-- Either `true` or `false`; without a value it is `true`. -/
  | truth
  | text
  /-- Not empty. -/
  | path
  /-- Items between commas. Such an option may occur again and adds to its items. -/
  | list
  /-- A count of sixty-four bits. -/
  | count
  | choice (names : List String)
  deriving DecidableEq, Repr

structure Flag where
  name : String
  kind : ValueKind
  deriving DecidableEq, Repr

/-- What may stand on a command line. -/
structure Grammar where
  flags : List Flag
  /-- How many plain arguments there may be. -/
  plain : Nat
  /-- Names of commands that a plain argument may be; a command ends what the grammar reads. -/
  commands : List String
  /-- Whether the version can be asked for. -/
  hasVersion : Bool
  deriving DecidableEq, Repr

/-- Why a command line is not carried out. -/
inductive UsageError where
  | help
  | version
  | unknownArgument (arg : String)
  | missingValue (flag : String)
  | unexpectedValue (flag : String)
  | repeated (flag : String)
  | notAChoice (flag value : String)
  | notANumber (flag value : String)
  | missingArgument (name : String)
  | missingCommand
  | unknownCommand (name : String)
  deriving DecidableEq, Repr

namespace UsageError

/-- What to tell whoever typed the command line. -/
def message : UsageError → String
  | .help => "help was asked for"
  | .version => "the version was asked for"
  | .unknownArgument arg => "unexpected argument '" ++ arg ++ "' found"
  | .missingValue flag => "a value is required for '--" ++ flag ++ "' but none was supplied"
  | .unexpectedValue flag => "unexpected value for '--" ++ flag ++ "' found; no more were expected"
  | .repeated flag => "the argument '--" ++ flag ++ "' cannot be used multiple times"
  | .notAChoice flag value | .notANumber flag value =>
    "invalid value '" ++ value ++ "' for '--" ++ flag ++ "'"
  | .missingArgument name => "the required argument <" ++ name ++ "> was not provided"
  | .missingCommand => "a subcommand is required"
  | .unknownCommand name => "unrecognized subcommand '" ++ name ++ "'"

end UsageError

/-! ## Reading -/

/-- What has been read of a command line. -/
structure Matches where
  /-- Options with their values, in order. -/
  values : List (String × List String) := []
  plain : List String := []
  /-- The command and what follows it. -/
  command : Option (String × List String) := none
  deriving DecidableEq, Repr

namespace Matches

/-- The values of an option. -/
def all (m : Matches) (name : String) : List String :=
  (m.values.filter (·.1 == name)).flatMap (·.2)

def value? (m : Matches) (name : String) : Option String :=
  (m.all name).head?

def has (m : Matches) (name : String) : Bool :=
  m.values.any (·.1 == name)

/-- Whether an option is there with the value `true`. -/
def isTrue (m : Matches) (name : String) : Bool :=
  m.value? name == some "true"

def count? (m : Matches) (name : String) : Option Nat :=
  (m.value? name).bind Decimal.readUInt64?

end Matches

/-- An option whose values are still to be checked. -/
structure Pending where
  flag : Flag
  values : List String
  deriving DecidableEq, Repr

namespace Pending

/-- Whether the next argument may be a value of the option. -/
def wantsValue (p : Pending) : Bool :=
  p.flag.kind != .none && p.values.isEmpty

/-- The values that an option comes to. -/
def resolved (p : Pending) : Except UsageError (List String) :=
  match p.flag.kind, p.values with
  | .none, _ => .ok []
  | .truth, [] => .ok ["true"]
  | _, [] => .error (.missingValue p.flag.name)
  | .list, values =>
    .ok (values.flatMap fun v => (pieces ',' v.toList).map String.ofList)
  | _, values => .ok values

/-- Whether a value is one of its kind. -/
def check (flag : Flag) (value : String) : Except UsageError Unit :=
  match flag.kind with
  | .truth =>
    if value == "true" || value == "false" then .ok () else .error (.notAChoice flag.name value)
  | .path => if value.isEmpty then .error (.missingValue flag.name) else .ok ()
  | .count =>
    if (Decimal.readUInt64? value).isSome then .ok () else .error (.notANumber flag.name value)
  | .choice names =>
    if names.contains value then .ok () else .error (.notAChoice flag.name value)
  | _ => .ok ()

/-- Adds an option to what has been read. -/
def settle (p : Pending) (m : Matches) : Except UsageError Matches := do
  let values ← p.resolved
  if m.has p.flag.name && p.flag.kind != .list then throw (.repeated p.flag.name)
  values.forM (check p.flag)
  return { m with values := m.values ++ [(p.flag.name, values)] }

end Pending

/-- Settles an option if there is one. -/
def settle (m : Matches) : Option Pending → Except UsageError Matches
  | some p => p.settle m
  | none => .ok m

/-- How an argument reads. -/
inductive Shape where
  /-- Two hyphens. -/
  | escape
  /-- An option by its name, with the value behind an equals sign. -/
  | long (name : String) (value : Option String)
  /-- A letter behind one hyphen. -/
  | short (letter : Char)
  | plain
  deriving DecidableEq, Repr

/-- The shape of an argument. -/
def Shape.ofArg (arg : String) : Shape :=
  match arg.toList with
  | ['-', '-'] => .escape
  | '-' :: '-' :: rest =>
    .long (String.ofList (rest.takeWhile (· != '='))) <|
      match rest.dropWhile (· != '=') with
      | _ :: value => some (String.ofList value)
      | [] => none
  | '-' :: c :: _ => .short c
  | _ => .plain

namespace Grammar

/-- Reads an option by its name. -/
def readLong (g : Grammar) (m : Matches) (pending : Option Pending) (arg name : String)
    (value : Option String) : Except UsageError (Matches × Option Pending) := do
  let asked : Option UsageError :=
    if name == "help" then some .help
    else if name == "version" && g.hasVersion then some .version
    else none
  match asked, value, g.flags.find? (·.name == name) with
  | some _, some _, _ => throw (.unexpectedValue name)
  | some e, none, _ =>
    let _ ← settle m pending
    throw e
  | none, _, none => throw (.unknownArgument arg)
  | none, some v, some flag =>
    if flag.kind == .none then throw (.unexpectedValue name)
    let m ← settle m pending
    return (← Pending.settle ⟨flag, [v]⟩ m, none)
  | none, none, some flag =>
    let m ← settle m pending
    return (m, some ⟨flag, []⟩)

/-- Reads options by their letters. Only the first letter counts, as no letter takes a value. -/
def readShort (g : Grammar) (m : Matches) (pending : Option Pending) (arg : String)
    (letter : Char) : UsageError :=
  let asked (e : UsageError) : UsageError :=
    match settle m pending with
    | .ok _ => e
    | .error e => e
  if letter == 'h' then asked .help
  else if letter == 'V' && g.hasVersion then asked .version
  else .unknownArgument arg

/-- Takes a plain argument. -/
def readPlain (g : Grammar) (m : Matches) (pending : Option Pending) (arg : String) :
    Except UsageError Matches := do
  if m.plain.length < g.plain then
    let m ← settle m pending
    return { m with plain := m.plain ++ [arg] }
  else if g.commands.isEmpty then throw (.unknownArgument arg)
  else throw (.unknownCommand arg)

/-- Reads arguments from the left. -/
def readArgs (g : Grammar) (m : Matches) (pending : Option Pending) (escaped : Bool) :
    List String → Except UsageError Matches
  | [] => settle m pending
  | arg :: rest =>
    match if escaped then Shape.plain else Shape.ofArg arg with
    | .escape => g.readArgs m pending true rest
    | .long name value => do
      let (m, pending) ← g.readLong m pending arg name value
      g.readArgs m pending false rest
    | .short letter => .error (g.readShort m pending arg letter)
    | .plain =>
      match if escaped then none else pending.filter (·.wantsValue) with
      | some p => g.readArgs m (some { p with values := [arg] }) false rest
      | none => do
        if !escaped && g.commands.contains arg then
          return { ← settle m pending with command := some (arg, rest) }
        else g.readArgs (← g.readPlain m pending arg) none escaped rest

/-- Reads a command line. -/
def read (g : Grammar) (args : List String) : Except UsageError Matches :=
  g.readArgs {} none false args

end Grammar

end Logbook.CommandLine
