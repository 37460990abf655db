/-
This file writes values in the JSON notation without blanks. Quotes, backslashes
and control characters are escaped; every other character stands for itself.
-/

import VmFleet.Text.Decimal
import VmFleet.Text.Hex

namespace VmFleet.Text.Json

/-- Whether a character is an ASCII control character. -/
def isControl (character : Char) : Bool :=
  character.toNat < 0x20 || character.toNat == 0x7F

/-- A character as it stands between quotes. -/
def escape (character : Char) : List Char :=
  if character = '"' then ['\\', '"']
  else if character = '\\' then ['\\', '\\']
  else if character = '\n' then ['\\', 'n']
  else if character = '\r' then ['\\', 'r']
  else if character = '\t' then ['\\', 't']
  else if character.toNat = 0x08 then ['\\', 'b']
  else if character.toNat = 0x0C then ['\\', 'f']
  else if isControl character then
    '\\' :: 'u' :: '0' :: '0' :: hexOfOctet (UInt8.ofNat character.toNat)
  else [character]

/-- A text between quotes. -/
def text (content : String) : String :=
  "\"" ++ String.ofList (content.toList.flatMap escape) ++ "\""

/-- A number. -/
def number (value : Int) : String :=
  toString value

/-- A text, or the word for nothing. -/
def textOrNull (content : Option String) : String :=
  match content with
  | some content => text content
  | none => "null"

/-- A list of written values. -/
def list (items : List String) : String :=
  "[" ++ String.intercalate "," items ++ "]"

/-- An object of named written values in the given order. -/
def object (fields : List (String × String)) : String :=
  "\x7b" ++ String.intercalate "," (fields.map fun (name, value) => text name ++ ":" ++ value) ++
    "\x7d"

end VmFleet.Text.Json
