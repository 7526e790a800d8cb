import Logbook.Query.Stats
import Logbook.Regex.Parser
import Logbook.Text.Quoted

set_option autoImplicit false

/-! # Reading query text

A cursor stands between two characters of a query. Readers move it forward and fail with the place
of the fault in bytes. Tokens are words, which end at blanks, brackets, commas, bars and quotes, and
quoted texts. -/

namespace Logbook

/-! ## Faults -/

/-- What is wrong with a query. -/
inductive ParseFault where
  | trailing (rest : String)
  | expected (c : Char)
  | unterminated
  | noFilter
  | noValue (field : String)
  | badDuration (text : String)
  | badTime (text : String)
  | badNumber (text : String)
  | badRegex (source : String) (error : Regex.Error)
  | noLabel
  | noOperator
  | noPipe
  | unknownPipe (name : String)
  | noCount (text : String)
  | noFieldName
  | noSortField
  | noGroupField
  | notBucketable
  | badStep (text : String)
  | unknownFunction (name : String)
  | noResultName
  | unknownOption (rest : String)
  /-- More steps than the text has characters; no text leads here. -/
  | exhausted
  deriving DecidableEq, Repr

def ParseFault.message : ParseFault → String
  | .trailing rest => "unexpected " ++ Text.quoted rest
  | .expected c => "expected '" ++ String.singleton c ++ "'"
  | .unterminated => "unterminated string"
  | .noFilter => "expected a filter"
  | .noValue field => "missing value after " ++ field ++ ":"
  | .badDuration text => "cannot parse duration " ++ Text.quoted text
  | .badTime text => "cannot parse time " ++ Text.quoted text
  | .badNumber text => "cannot parse number " ++ Text.quoted text
  | .badRegex source error => "invalid regex " ++ Text.quoted source ++ ": " ++ error.message
  | .noLabel => "expected a stream label name"
  | .noOperator => "expected =, !=, =~ or !~"
  | .noPipe => "missing pipe after '|'"
  | .unknownPipe name => "unknown pipe " ++ Text.quoted name
  | .noCount text => "expected a number, got " ++ Text.quoted text
  | .noFieldName => "expected a field name"
  | .noSortField => "expected a sort field"
  | .noGroupField => "expected a field name in by(...)"
  | .notBucketable => "only _time can be bucketed"
  | .badStep text => "cannot parse bucket step " ++ Text.quoted text
  | .unknownFunction name => "unknown stats function " ++ Text.quoted name
  | .noResultName => "expected a result name"
  | .unknownOption rest => "unexpected facets option " ++ Text.quoted rest
  | .exhausted => "query is too long"

/-- A fault and its place, in bytes from the start of the query. -/
structure ParseError where
  pos : Nat
  fault : ParseFault
  deriving DecidableEq, Repr

def ParseError.message (e : ParseError) : String :=
  e.fault.message

/-- The message with its place. -/
def ParseError.describe (e : ParseError) : String :=
  s!"cannot parse query at position {e.pos}: " ++ e.message

/-! ## The cursor -/

/-- The characters ahead, and the bytes behind. -/
structure Cursor where
  rest : List Char
  pos : Nat
  deriving DecidableEq, Repr

namespace Cursor

/-- Length of characters in bytes. -/
def byteLength (cs : List Char) : Nat :=
  cs.foldl (fun n c => n + c.utf8Size) 0

/-- Goes past the next `n` characters. -/
def skip (c : Cursor) (n : Nat) : Cursor :=
  ⟨c.rest.drop n, c.pos + byteLength (c.rest.take n)⟩

/-- Goes past the characters at the front that satisfy a condition. -/
def skipWhile (c : Cursor) (p : Char → Bool) : Cursor :=
  ⟨c.rest.dropWhile p, c.pos + byteLength (c.rest.takeWhile p)⟩

def skipBlanks (c : Cursor) : Cursor :=
  c.skipWhile Text.isBlank

def peek? (c : Cursor) : Option Char :=
  c.rest.head?

def text (c : Cursor) : String :=
  String.ofList c.rest

end Cursor

/-- A step of reading: a value and the cursor behind it, or a fault. -/
abbrev QueryReader := StateT Cursor (Except ParseError)

namespace QueryReader

/-- Fails at the cursor. -/
def fail {α : Type} (fault : ParseFault) : QueryReader α := do
  throw ⟨(← get).pos, fault⟩

/-- Fails at an earlier place. -/
def failAt {α : Type} (pos : Nat) (fault : ParseFault) : QueryReader α :=
  throw ⟨pos, fault⟩

def skipBlanks : QueryReader Unit :=
  modify Cursor.skipBlanks

/-- The next character, which stays ahead. -/
def peek? : QueryReader (Option Char) := do
  return (← get).peek?

/-- Goes past the next character. -/
def bump : QueryReader Unit :=
  modify (·.skip 1)

/-- Whether nothing but blanks is ahead; goes past them. -/
def atEnd : QueryReader Bool := do
  skipBlanks
  return (← peek?).isNone

/-- Goes past blanks, and past a character if it comes next. -/
def eat (c : Char) : QueryReader Bool := do
  skipBlanks
  if (← peek?) = some c then
    bump
    return true
  else return false

/-- Goes past blanks and a character, which must come next. -/
def expect (c : Char) : QueryReader Unit := do
  if !(← eat c) then fail (.expected c)

/-- Characters that may follow a keyword. -/
def endsKeyword (c : Char) : Bool :=
  Text.isBlank c || "()|!\"',".toList.contains c

/-- Whether a keyword, in any case, is at the front. -/
def startsWithKeyword (keyword : String) (cs : List Char) : Bool :=
  let word := keyword.toList
  (cs.take word.length).map Char.toLower == word
    && (cs.drop word.length).head?.all endsKeyword

/-- Goes past blanks and says whether a keyword comes next. -/
def peekKeyword (keyword : String) : QueryReader Bool := do
  skipBlanks
  return startsWithKeyword keyword (← get).rest

/-- Goes past blanks, and past a keyword if it comes next. -/
def eatKeyword (keyword : String) : QueryReader Bool := do
  if ← peekKeyword keyword then
    modify (·.skip keyword.length)
    return true
  else return false

/-- Characters at which a word ends; a colon does so only where a field name may stand. -/
def endsWord (stopAtColon : Bool) (c : Char) : Bool :=
  Text.isBlank c || "(),|\"'\x60\x7b\x7d".toList.contains c || (stopAtColon && c = ':')

/-- Goes past blanks and reads a word, which may be empty. -/
def bareWord (stopAtColon : Bool) : QueryReader String := do
  skipBlanks
  let c ← get
  set (c.skipWhile (!endsWord stopAtColon ·))
  return String.ofList (c.rest.takeWhile (!endsWord stopAtColon ·))

def isQuote (c : Char) : Bool :=
  c = '"' || c = '\'' || c = '\x60'

/-- Goes past blanks and says whether a quoted text comes next. -/
def peekQuote : QueryReader Bool := do
  skipBlanks
  return (← peek?).any isQuote

/-- The content of a quoted text up to its closing quote, and the number of characters up to and
    with the quote. A backslash takes the next character as it is, or stands for a line feed or a
    tab with `n` or `t`; between backquotes it has no meaning. -/
def quotedContent? (quote : Char) : List Char → Option (List Char × Nat)
  | [] => none
  | c :: rest =>
    if c = quote then some ([], 1)
    else if c = '\\' ∧ quote ≠ '\x60' then
      match rest with
      | [] => none
      | e :: rest =>
        let d := if e = 'n' then '\n' else if e = 't' then '\t' else e
        (quotedContent? quote rest).map fun (out, n) => (d :: out, n + 2)
    else (quotedContent? quote rest).map fun (out, n) => (c :: out, n + 1)

/-- Reads the quoted text that comes next. -/
def quoted : QueryReader String := do
  skipBlanks
  let c ← get
  match c.rest with
  | [] => fail .unterminated
  | quote :: rest =>
    match quotedContent? quote rest with
    | none => fail .unterminated
    | some (out, n) =>
      set (c.skip (n + 1))
      return String.ofList out

/-- Reads a quoted text or a word. -/
def value (stopAtColon : Bool) : QueryReader String := do
  if ← peekQuote then quoted else bareWord stopAtColon

/-- Reads items separated by commas up to a closing character. `fuel` bounds their number. -/
def itemsUntil {α : Type} (close : Char) (item : QueryReader α) : (fuel : Nat) →
    QueryReader (List α)
  | 0 => fail .exhausted
  | fuel + 1 => do
    let x ← item
    if ← eat close then return [x]
    else
      expect ','
      return x :: (← itemsUntil close item fuel)

/-- Reads items separated by commas up to a closing character; there may be none. -/
def itemList {α : Type} (close : Char) (item : QueryReader α) : QueryReader (List α) := do
  if ← eat close then return []
  else itemsUntil close item ((← get).rest.length + 1)

end QueryReader

end Logbook
