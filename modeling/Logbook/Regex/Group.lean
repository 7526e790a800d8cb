import Logbook.Regex.Flags

set_option autoImplicit false

/-! # The opening of a group

After a parenthesis stand a name, flags for the group, flags for what follows it, or nothing. Flags
alone open no group. -/

namespace Logbook.Regex

/-- What remains to be read, with the flags in force and the group names taken so far. -/
structure State where
  rest : List Char
  flags : Flags
  names : List (List Char)
  deriving Repr

/-- Sets or clears the flag with this letter; nothing depends on the preference between matches. -/
def setFlag? (f : Flags) (c : Char) (on : Bool) : Option Flags :=
  if c = 'i' then some { f with ignoreCase := on }
  else if c = 'm' then some { f with multiLine := on }
  else if c = 's' then some { f with dotAll := on }
  else if c = 'u' then some { f with unicode := on }
  else if c = 'R' then some { f with crlf := on }
  else if c = 'x' then some { f with verbose := on }
  else if c = 'U' then some f
  else none

/-- Reads flags up to a colon or a closing parenthesis: the flags, whether any were read, and what
    ends them. No flag may be listed twice, and a minus must be followed by a flag. -/
def readFlags : List Char → (seen : List Char) → (on : Bool) → (afterMinus : Bool) → Flags →
    Option (Flags × Bool × Char × List Char)
  | [], _, _, _, _ => none
  | c :: rest, seen, on, afterMinus, f =>
    if c = ':' ∨ c = ')' then if afterMinus then none else some (f, !seen.isEmpty, c, rest)
    else if seen.contains c then none
    else if c = '-' then readFlags rest (c :: seen) false true f
    else do readFlags rest (c :: seen) on false (← setFlag? f c on)

/-- Reads the name of a group up to its closing angle bracket. -/
def readName : List Char → (name : List Char) → Option (List Char × List Char)
  | [], _ => none
  | c :: rest, name =>
    if c = '>' then if name.isEmpty then none else some (name.reverse, rest)
    else
      let allowed :=
        if name.isEmpty then c = '_' || Text.isAlphabetic c
        else c = '_' || c = '.' || c = '[' || c = ']' || Text.isAlphanumeric c
      if allowed then readName rest (c :: name) else none

/-- What the opening of a group after its parenthesis comes to. -/
inductive GroupOpen where
  /-- Flags for the rest of the enclosing group. -/
  | flags (s : State)
  /-- A group with its own flags. -/
  | group (s : State)

def readNamedGroup (s : State) (cs : List Char) : Option GroupOpen := do
  let (name, rest) ← readName cs []
  if s.names.contains name then none
  else return .group { s with rest, names := name :: s.names }

def readGroupOpen (s : State) (cs : List Char) : Option GroupOpen :=
  match skipBlanks s.flags.verbose cs with
  | '?' :: 'P' :: '<' :: rest => readNamedGroup s rest
  | '?' :: '=' :: _ | '?' :: '!' :: _ | '?' :: '<' :: '=' :: _ | '?' :: '<' :: '!' :: _ => none
  | '?' :: '<' :: rest => readNamedGroup s rest
  | '?' :: rest => do
    let (flags, any, stop, rest) ← readFlags rest [] true false s.flags
    if stop = ')' then
      if any then return .flags { s with rest, flags } else none
    else return .group { s with rest, flags }
  | rest => some (.group { s with rest })

end Logbook.Regex
