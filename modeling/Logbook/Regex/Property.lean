import Logbook.Text.CaseFold
import Logbook.Text.Script

set_option autoImplicit false

/-! # Character properties

The properties of characters that a pattern can name: general categories and groups of them,
scripts, and a few that are neither. Names are compared in lowercase, without separators and without
a leading `is`. -/

namespace Logbook.Regex

open Logbook.Text (Category)

/-- A property that a character has or has not. -/
inductive Property where
  | any
  | ascii
  | category (categories : List Category)
  | script (code : String)
  | alphabetic
  | lowercase
  | uppercase
  | blank
  deriving DecidableEq, Repr

namespace Property

def holds : Property → Char → Bool
  | .any, _ => true
  | .ascii, c => c.toNat < 128
  | .category cs, c => cs.contains (Category.of c)
  | .script code, c => Text.Script.code c == code
  | .alphabetic, c => Text.isAlphabetic c
  | .lowercase, c => Text.isLowercase c
  | .uppercase, c => Text.isUppercase c
  | .blank, c => Text.isBlank c

/-- The groups of general categories with their names. -/
def groups : List (List String × List Category) :=
  let letters : List Category :=
    [.uppercaseLetter, .lowercaseLetter, .titlecaseLetter, .modifierLetter, .otherLetter]
  let cased : List Category := [.uppercaseLetter, .lowercaseLetter, .titlecaseLetter]
  let marks : List Category := [.nonspacingMark, .spacingMark, .enclosingMark]
  let numbers : List Category := [.decimalNumber, .letterNumber, .otherNumber]
  let punctuation : List Category :=
    [.connectorPunctuation, .dashPunctuation, .openPunctuation, .closePunctuation,
      .initialPunctuation, .finalPunctuation, .otherPunctuation]
  let symbols : List Category := [.mathSymbol, .currencySymbol, .modifierSymbol, .otherSymbol]
  let separators : List Category := [.spaceSeparator, .lineSeparator, .paragraphSeparator]
  let others : List Category := [.control, .format, .surrogate, .privateUse, .unassigned]
  [(["l", "letter"], letters), (["lc", "casedletter"], cased),
    (["m", "mark", "combiningmark"], marks), (["n", "number"], numbers),
    (["p", "punctuation", "punct"], punctuation), (["s", "symbol"], symbols),
    (["z", "separator"], separators), (["c", "other"], others),
    (["assigned"], Category.all.filter (· != .unassigned))]

/-- The long names of the general categories. -/
def longNames : List (List String × Category) :=
  [(["uppercaseletter"], .uppercaseLetter), (["lowercaseletter"], .lowercaseLetter),
    (["titlecaseletter"], .titlecaseLetter), (["modifierletter"], .modifierLetter),
    (["otherletter"], .otherLetter), (["nonspacingmark"], .nonspacingMark),
    (["spacingmark"], .spacingMark), (["enclosingmark"], .enclosingMark),
    (["decimalnumber", "digit"], .decimalNumber), (["letternumber"], .letterNumber),
    (["othernumber"], .otherNumber), (["connectorpunctuation"], .connectorPunctuation),
    (["dashpunctuation"], .dashPunctuation), (["openpunctuation"], .openPunctuation),
    (["closepunctuation"], .closePunctuation), (["initialpunctuation"], .initialPunctuation),
    (["finalpunctuation"], .finalPunctuation), (["otherpunctuation"], .otherPunctuation),
    (["mathsymbol"], .mathSymbol), (["currencysymbol"], .currencySymbol),
    (["modifiersymbol"], .modifierSymbol), (["othersymbol"], .otherSymbol),
    (["spaceseparator"], .spaceSeparator), (["lineseparator"], .lineSeparator),
    (["paragraphseparator"], .paragraphSeparator), (["control", "cntrl"], .control),
    (["format"], .format), (["surrogate"], .surrogate), (["privateuse"], .privateUse),
    (["unassigned"], .unassigned)]

/-- A name in the form in which names are compared. -/
def normalize (name : List Char) : List Char :=
  let (isFirst, rest) := match name with
    | a :: b :: rest =>
      if (a = 'i' || a = 'I') && (b = 's' || b = 'S') then (true, rest) else (false, name)
    | name => (false, name)
  let kept := (rest.filter fun c => c.toNat < 128 && c ≠ ' ' && c ≠ '_' && c ≠ '-').map Char.toLower
  if isFirst && kept == ['c'] then ['i', 's', 'c'] else kept

/-- The general category, or group of them, of that name. -/
def ofCategoryName? (name : List Char) : Option Property :=
  let s := String.ofList name
  if s == "any" then some .any
  else if s == "ascii" then some .ascii
  else match groups.find? (·.1.contains s) with
  | some (_, cs) => some (.category cs)
  | none =>
    match longNames.find? (·.1.contains s) with
    | some (_, c) => some (.category [c])
    | none =>
      (Category.all.find? (·.shortName.toLower == s)).map fun c => .category [c]

/-- The script of that name. -/
def ofScriptName? (name : List Char) : Option Property :=
  (Text.Script.codeOfName? name).map .script

/-- The property of that name, which stands alone. -/
def ofName? (name : List Char) : Option Property :=
  let name := normalize name
  match String.ofList name with
  | "alphabetic" | "alpha" => some .alphabetic
  | "lowercase" | "lower" => some .lowercase
  | "uppercase" | "upper" => some .uppercase
  | "whitespace" | "wspace" | "space" => some .blank
  | _ =>
    match ofCategoryName? name with
    | some p => some p
    | none => ofScriptName? name

/-- The property that gives a named attribute that value. -/
def ofNameValue? (name value : List Char) : Option Property :=
  match String.ofList (normalize name) with
  | "gc" | "generalcategory" => ofCategoryName? (normalize value)
  | "sc" | "script" | "scx" | "scriptextensions" => ofScriptName? (normalize value)
  | _ => none

end Property

end Logbook.Regex
