/-
This file reads quoted text in its four forms: with escapes or literally, on one
line or on several. Control characters other than the tab have to be escaped. In
the forms for several lines a line break right after the opening counts for
nothing, and up to two quotes may stand before the closing ones.
-/

import VmFleet.Text.Hex
import VmFleet.Text.Reader

namespace VmFleet.Toml

open VmFleet.Text

/-- The quote of literal text. -/
def literalQuote : Char := Char.ofNat 0x27

/-- The characters that never stand for themselves in a line. -/
def isControl (character : Char) : Bool :=
  (character.toNat < 0x20 && character != '\t') || character.toNat == 0x7F

/-! ### Escapes -/

/-- The character with a code point, if there is one. -/
def codePoint? (value : Nat) : Option Char :=
  if value < 0xD800 ∨ (0xDFFF < value ∧ value < 0x110000) then some (Char.ofNat value) else none

/-- The character whose code point hexadecimal digits spell. -/
def codePointOf? (digits : List Char) : Option Char := do
  let values ← digits.mapM hexValue?
  codePoint? (values.foldl (fun total value => 16 * total + value) 0)

/-- How many digits follow an escape for a code point. -/
def codeLength? : Char → Option Nat
  | 'x' => some 2
  | 'u' => some 4
  | 'U' => some 8
  | _ => none

/-- The character of a short escape. -/
def shortEscape? : Char → Option Char
  | 'b' => some (Char.ofNat 0x08)
  | 't' => some '\t'
  | 'n' => some '\n'
  | 'f' => some (Char.ofNat 0x0C)
  | 'r' => some '\r'
  | 'e' => some (Char.ofNat 0x1B)
  | '"' => some '"'
  | '\\' => some '\\'
  | _ => none

/-- What stands after a backslash. -/
def readEscape : Reader Char
  | [] => none
  | mark :: text =>
    match codeLength? mark with
    | some count =>
      if (text.take count).length = count then
        (codePointOf? (text.take count)).map (·, text.drop count)
      else none
    | none => (shortEscape? mark).map (·, text)

/-! ### One line -/

/-- Text with escapes up to the closing quote. The steps bound how many
characters are read, and the text read so far is given in reverse. -/
def readEscaped : Nat → List Char → Reader (List Char)
  | 0, _, _ => none
  | _ + 1, _, [] => none
  | steps + 1, done, character :: text =>
    if character = '"' then some (done.reverse, text)
    else if character = '\\' then
      match readEscape text with
      | some (escaped, rest) => readEscaped steps (escaped :: done) rest
      | none => none
    else if isControl character then none
    else readEscaped steps (character :: done) text

/-- Literal text up to the closing quote. -/
def readLiteral : Reader (List Char) := fun text =>
  let content := text.takeWhile (· != literalQuote)
  if content.any isControl then none
  else (readCharacter literalQuote (text.drop content.length)).map fun (_, rest) => (content, rest)

/-! ### Several lines -/

/-- The text after a line break at its start, if there is one. -/
def afterBreak? : List Char → Option (List Char)
  | '\n' :: text => some text
  | '\r' :: '\n' :: text => some text
  | _ => none

/-- A blank within a line. -/
def isSpace (character : Char) : Bool :=
  character == ' ' || character == '\t'

/-- The text without the blanks and line breaks at its start. -/
def skipLines : List Char → List Char
  | '\n' :: text => skipLines text
  | '\r' :: '\n' :: text => skipLines text
  | ' ' :: text => skipLines text
  | '\t' :: text => skipLines text
  | text => text

/-- The closing quotes at the start of a text: how many quotes before them belong
to the content, and what follows. -/
def readClosing (quote : Char) : Reader Nat := fun text =>
  let run := (text.takeWhile (· == quote)).length
  if run < 3 then none else some (min (run - 3) 2, text.drop (min run 5))

/-- Text on several lines up to the closing quotes. -/
def readLines (quote : Char) (escapes : Bool) : Nat → List Char → Reader (List Char)
  | 0, _, _ => none
  | _ + 1, _, [] => none
  | steps + 1, done, character :: text =>
    match readClosing quote (character :: text) with
    | some (extra, rest) => some (done.reverse ++ List.replicate extra quote, rest)
    | none =>
      if character = '\\' ∧ escapes then
        match afterBreak? (text.dropWhile isSpace) with
        | some rest => readLines quote escapes steps done (skipLines rest)
        | none =>
          match readEscape text with
          | some (escaped, rest) => readLines quote escapes steps (escaped :: done) rest
          | none => none
      else if character = '\n' ∨ (character = '\r' ∧ text.head? = some '\n') then
        readLines quote escapes steps (character :: done) text
      else if isControl character then none
      else readLines quote escapes steps (character :: done) text

/-! ### Any form -/

/-- A quoted text on one line. -/
def readQuoted : Reader String := fun text =>
  match text with
  | [] => none
  | quote :: rest =>
    let content :=
      if quote = '"' then readEscaped (rest.length + 1) [] rest
      else if quote = literalQuote then readLiteral rest
      else none
    content.map fun (characters, rest) => (String.ofList characters, rest)

/-- A quoted text in any form. -/
def readText : Reader String := fun text =>
  let quote := text.head?.getD ' '
  let opened := text.take 3 == [quote, quote, quote]
  if opened ∧ (quote = '"' ∨ quote = literalQuote) then
    let body := text.drop 3
    let body := (afterBreak? body).getD body
    (readLines quote (quote == '"') (body.length + 1) [] body).map
      fun (characters, rest) => (String.ofList characters, rest)
  else readQuoted text

end VmFleet.Toml
