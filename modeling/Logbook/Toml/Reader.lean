import Logbook.Toml.Scalar

set_option autoImplicit false

/-! # Reading TOML

A document is a list of lines, each a header, a key with its value, or blank; a comment may end any
of them. Keys add to the table of the last header. -/

namespace Logbook.Toml

/-! ## Gaps -/

def skipSpaces (cs : List Char) : List Char :=
  cs.dropWhile isSpace

/-- The text behind a comment, which reaches to the end of the line. -/
def dropComment? : List Char → Option (List Char)
  | [] => some []
  | c :: rest =>
    if (dropLineEnd? (c :: rest)).isSome then some (c :: rest)
    else if isPlain c then dropComment? rest
    else none

/-- The text behind the rest of a line that has nothing more to say. -/
def dropLine? (cs : List Char) : Option (List Char) := do
  let cs ← match skipSpaces cs with
    | '#' :: rest => dropComment? rest
    | cs => some cs
  if cs.isEmpty then return [] else dropLineEnd? cs

/-- The text behind blanks, line ends and comments. -/
def dropGap? : (fuel : Nat) → List Char → Option (List Char)
  | 0, cs => some cs
  | fuel + 1, cs =>
    match skipSpaces cs with
    | '#' :: rest => do dropGap? fuel (← dropComment? rest)
    | cs =>
      match dropLineEnd? cs with
      | some rest => dropGap? fuel rest
      | none => some cs

/-! ## Keys -/

def isKeyChar (c : Char) : Bool :=
  c.isAlphanum || c = '_' || c = '-'

/-- Reads one key. -/
def readKey : List Char → Option (String × List Char)
  | '"' :: rest => readShortText '"' rest
  | '\'' :: rest => readShortText '\'' rest
  | cs =>
    let key := cs.takeWhile isKeyChar
    if key.isEmpty then none else some (String.ofList key, cs.drop key.length)

/-- Reads keys with points between them, and the blanks behind them. -/
def readPath : (fuel : Nat) → List Char → Option (List String × List Char)
  | 0, _ => none
  | fuel + 1, cs => do
    let (key, rest) ← readKey cs
    match skipSpaces rest with
    | '.' :: rest =>
      let (path, rest) ← readPath fuel (skipSpaces rest)
      return (key :: path, rest)
    | rest => return ([key], rest)

/-! ## Values -/

mutual

/-- Reads a value; `fuel` bounds the number of steps and never runs out before the text does. -/
def readValue : (fuel : Nat) → List Char → Option (Toml × List Char)
  | 0, _ => none
  | fuel + 1, cs =>
    match cs with
    | '"' :: '"' :: '"' :: rest => (readLongText '"' rest).map fun (s, rest) => (.text s, rest)
    | '"' :: rest => (readShortText '"' rest).map fun (s, rest) => (.text s, rest)
    | '\'' :: '\'' :: '\'' :: rest =>
      (readLongText '\'' rest).map fun (s, rest) => (.text s, rest)
    | '\'' :: rest => (readShortText '\'' rest).map fun (s, rest) => (.text s, rest)
    | '[' :: rest => (readItems fuel rest).map fun (vs, rest) => (.arr vs, rest)
    | '{' :: rest =>
      match skipSpaces rest with
      | '}' :: rest => some (.table [], rest)
      | rest => (readMembers fuel [] rest).map fun (es, rest) =>
        (.table (Entries.entryValues es), rest)
    | _ => readWord cs

/-- Reads the items of an array up to its closing bracket. -/
def readItems : (fuel : Nat) → List Char → Option (List Toml × List Char)
  | 0, _ => none
  | fuel + 1, cs => do
    match ← dropGap? cs.length cs with
    | ']' :: rest => return ([], rest)
    | cs =>
      let (v, rest) ← readValue fuel cs
      match ← dropGap? rest.length rest with
      | ',' :: rest =>
        let (vs, rest) ← readItems fuel rest
        return (v :: vs, rest)
      | ']' :: rest => return ([v], rest)
      | _ => none

/-- Reads the members of a table within a line up to its closing brace. -/
def readMembers : (fuel : Nat) → Entries → List Char → Option (Entries × List Char)
  | 0, _, _ => none
  | fuel + 1, es, cs => do
    let (path, v, rest) ← readPair fuel (skipSpaces cs)
    let es ← es.addValue path v
    match skipSpaces rest with
    | ',' :: rest => readMembers fuel es rest
    | '}' :: rest => return (es, rest)
    | _ => none

/-- Reads a key and its value. -/
def readPair : (fuel : Nat) → List Char → Option (List String × Toml × List Char)
  | 0, _ => none
  | fuel + 1, cs => do
    let (path, rest) ← readPath cs.length cs
    match rest with
    | '=' :: rest =>
      let (v, rest) ← readValue fuel (skipSpaces rest)
      return (path, v, rest)
    | _ => none

end

/-! ## Documents -/

/-- A document as far as it has been read. -/
structure Document where
  root : Entries
  /-- The path of the last header. -/
  header : List String

namespace Document

/-- Reads a header behind its brackets, and the brackets that close it. -/
def readHeader (closing : List Char) (cs : List Char) : Option (List String × List Char) := do
  let (path, rest) ← readPath cs.length (skipSpaces cs)
  return (path, ← Json.dropWord? closing rest)

/-- Reads a line that is not blank. -/
def readLine (d : Document) (cs : List Char) : Option (Document × List Char) :=
  match cs with
  | '[' :: '[' :: rest => do
    let (path, rest) ← readHeader "]]".toList rest
    return (⟨← d.root.addToTables path, path⟩, rest)
  | '[' :: rest => do
    let (path, rest) ← readHeader "]".toList rest
    return (⟨← d.root.addTable path, path⟩, rest)
  | _ => do
    let (path, v, rest) ← readPair (2 * cs.length + 2) cs
    return ({ d with
      root := ← Entries.descend .passing (Entries.addValue path v) d.header d.root }, rest)

/-- Reads lines. -/
def readLines : (fuel : Nat) → Document → List Char → Option Document
  | 0, _, _ => none
  | fuel + 1, d, cs =>
    match skipSpaces cs with
    | [] => some d
    | cs =>
      match dropLine? cs with
      | some rest => readLines fuel d rest
      | none => do
        let (d, rest) ← d.readLine cs
        readLines fuel d (← dropLine? rest)

end Document

/-- The table that a document stands for. A mark of byte order may stand in front. -/
def read? (s : String) : Option (List (String × Toml)) :=
  let cs := match s.toList with
    | '\uFEFF' :: rest => rest
    | cs => cs
  (Document.readLines (cs.length + 1) ⟨[], []⟩ cs).map fun d => Entries.entryValues d.root

end Logbook.Toml
