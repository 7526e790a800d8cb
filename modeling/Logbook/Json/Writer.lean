import Logbook.Json.Basic

set_option autoImplicit false

/-! # Writing JSON

The compact form: no blanks, and in strings only quotes, backslashes and control characters
escaped. -/

namespace Logbook.Json

def hexDigit (n : Nat) : Char :=
  Nat.digitChar n

/-- A character inside a string. -/
def renderChar (c : Char) : List Char :=
  if c = '"' then ['\\', '"']
  else if c = '\\' then ['\\', '\\']
  else if c = '\n' then ['\\', 'n']
  else if c = '\r' then ['\\', 'r']
  else if c = '\t' then ['\\', 't']
  else if c.toNat = 8 then ['\\', 'b']
  else if c.toNat = 12 then ['\\', 'f']
  else if c.toNat < 32 then
    ['\\', 'u', '0', '0', hexDigit (c.toNat / 16), hexDigit (c.toNat % 16)]
  else [c]

def renderString (s : String) : List Char :=
  '"' :: (s.toList.flatMap renderChar ++ ['"'])

/-- Whole numbers in decimal, doubles in the layout of JSON numbers. -/
def renderNumber (x : Float) : List Char :=
  (Decimal.Layout.json.render x).toList

mutual

def renderChars : Json → List Char
  | .null => "null".toList
  | .bool true => "true".toList
  | .bool false => "false".toList
  | .int n => (toString n).toList
  | .float x => renderNumber x
  | .str s => renderString s
  | .arr items => '[' :: (renderItems items ++ [']'])
  | .obj members => '{' :: (renderMembers members ++ ['}'])

def renderItems : List Json → List Char
  | [] => []
  | [v] => renderChars v
  | v :: rest => renderChars v ++ ',' :: renderItems rest

def renderMembers : List (String × Json) → List Char
  | [] => []
  | [(key, v)] => renderString key ++ ':' :: renderChars v
  | (key, v) :: rest => renderString key ++ ':' :: (renderChars v ++ ',' :: renderMembers rest)

end

/-- The value as text. -/
def render (v : Json) : String :=
  String.ofList v.renderChars

end Logbook.Json
