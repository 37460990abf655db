/-
This file reads a whole configuration file into its statements. A statement ends
with its line; only inside brackets and braces do line breaks and comments count
for nothing. A comma may follow the last item. Reading is strict: what does not
belong to the form refuses the whole file.
-/

import VmFleet.Toml.Quoted
import VmFleet.Toml.Scalar

namespace VmFleet.Toml

open VmFleet.Text

/-! ### Between the words -/

/-- The text without the blanks at its start. -/
def skipSpaces (text : List Char) : List Char :=
  text.dropWhile isSpace

/-- The rest of a text after a comment, which ends before its line break. -/
def skipComment? (text : List Char) : Option (List Char) :=
  let line := text.takeWhile (· != '\n')
  let comment := if line.getLast? = some '\r' then line.dropLast else line
  if comment.any isControl then none else some (text.drop comment.length)

/-- The text without the blanks and the comment at its start. -/
def skipTail? (text : List Char) : Option (List Char) :=
  match skipSpaces text with
  | '#' :: comment => skipComment? comment
  | rest => some rest

/-- The rest of a text after the end of a line. -/
def readLineEnd : Reader Unit := fun text => do
  match ← skipTail? text with
  | [] => some ((), [])
  | rest => (afterBreak? rest).map ((), ·)

/-- The text without the blanks, comments and line breaks at its start. -/
def skipFiller? : Nat → List Char → Option (List Char)
  | 0, text => some text
  | steps + 1, text => do
    let rest ← skipTail? text
    match afterBreak? rest with
    | some rest => skipFiller? steps rest
    | none => some rest

/-- All filler at the start of a text. -/
def skipAllFiller? (text : List Char) : Option (List Char) :=
  skipFiller? text.length text

/-! ### Keys -/

/-- The characters of a name without quotes. -/
def isNameCharacter (character : Char) : Bool :=
  isDigit character || ('a' ≤ character && character ≤ 'z') ||
    ('A' ≤ character && character ≤ 'Z') || character == '-' || character == '_'

/-- One name of a key. -/
def readName : Reader String := fun text =>
  match readQuoted text with
  | some found => some found
  | none =>
    let name := text.takeWhile isNameCharacter
    if name.isEmpty then none else some (String.ofList name, text.drop name.length)

/-- Names joined by dots, with blanks around them. -/
def readNames : Nat → Reader Key
  | 0, _ => none
  | steps + 1, text => do
    let (name, rest) ← readName (skipSpaces text)
    match skipSpaces rest with
    | '.' :: rest => do
      let (names, rest) ← readNames steps rest
      some (name :: names, rest)
    | rest => some ([name], rest)

/-- A key. -/
def readKey : Reader Key := fun text =>
  readNames (text.length + 1) text

/-! ### Values -/

/-- The characters that end an unquoted value. -/
def endsScalar (character : Char) : Bool :=
  "=,[]\x7b\x7d \t#\r\n\"".toList.contains character || character == literalQuote

/-- Whether a text starts with a time that a blank separates from its date. -/
def timeFollows (date text : List Char) : Bool :=
  isMoment date && date.length == 10 && text.head? == some ' ' &&
    isMoment (text.tail.takeWhile fun character => !endsScalar character)

/-- An unquoted value. -/
def readScalar : Reader Value := fun text =>
  let word := text.takeWhile fun character => !endsScalar character
  let rest := text.drop word.length
  if timeFollows word rest then
    let time := rest.tail.takeWhile fun character => !endsScalar character
    some (.moment (String.ofList (word ++ ' ' :: time)), rest.drop (time.length + 1))
  else (scalar? word).map (·, rest)

mutual

/-- A value. The steps bound how deep values are nested and how many there are. -/
def readValue : Nat → Reader Value
  | 0, _ => none
  | steps + 1, text =>
    match text with
    | '[' :: rest => (readItems steps rest).map fun (items, rest) => (.array items, rest)
    | '\x7b' :: rest =>
      (readAssignments steps rest).map fun (assignments, rest) => (.table assignments, rest)
    | _ =>
      match readText text with
      | some (content, rest) => some (.text content, rest)
      | none => readScalar text

/-- The items of an array up to its closing bracket. -/
def readItems : Nat → Reader (List Value)
  | 0, _ => none
  | steps + 1, text => do
    match ← skipAllFiller? text with
    | ']' :: rest => some ([], rest)
    | start => do
      let (item, rest) ← readValue steps start
      match ← skipAllFiller? rest with
      | ',' :: rest => do
        let (items, rest) ← readItems steps rest
        some (item :: items, rest)
      | ']' :: rest => some ([item], rest)
      | _ => none

/-- The assignments of a table up to its closing brace. -/
def readAssignments : Nat → Reader (List (Key × Value))
  | 0, _ => none
  | steps + 1, text => do
    match ← skipAllFiller? text with
    | '\x7d' :: rest => some ([], rest)
    | start => do
      let (key, rest) ← readKey start
      let (_, rest) ← readCharacter '=' rest
      let (value, rest) ← readValue steps (skipSpaces rest)
      match ← skipAllFiller? rest with
      | ',' :: rest => do
        let (assignments, rest) ← readAssignments steps rest
        some ((key, value) :: assignments, rest)
      | '\x7d' :: rest => some ([(key, value)], rest)
      | _ => none

end

/-! ### Statements -/

/-- One statement with the end of its line. -/
def readStatement : Reader Statement := fun text =>
  match text with
  | '[' :: '[' :: rest => do
    let (key, rest) ← readKey rest
    let (_, rest) ← readCharacter ']' rest
    let (_, rest) ← readCharacter ']' rest
    let (_, rest) ← readLineEnd rest
    some (.openItem key, rest)
  | '[' :: rest => do
    let (key, rest) ← readKey rest
    let (_, rest) ← readCharacter ']' rest
    let (_, rest) ← readLineEnd rest
    some (.openTable key, rest)
  | _ => do
    let (key, rest) ← readKey text
    let (_, rest) ← readCharacter '=' rest
    let (value, rest) ← readValue (2 * rest.length + 2) (skipSpaces rest)
    let (_, rest) ← readLineEnd rest
    some (.assign key value, rest)

/-- The statements of a text. -/
def readStatements : Nat → List Statement → List Char → Option (List Statement)
  | 0, _, _ => none
  | steps + 1, done, text => do
    match ← skipAllFiller? text with
    | [] => some done.reverse
    | start => do
      let (statement, rest) ← readStatement start
      readStatements steps (statement :: done) rest

/-- The mark that may open a text to tell its encoding. -/
def byteOrderMark : Char := Char.ofNat 0xFEFF

/-- The statements of a file. -/
def parse? (source : String) : Option (List Statement) :=
  let text := source.toList
  let text := if text.head? = some byteOrderMark then text.tail else text
  readStatements (text.length + 1) [] text

end VmFleet.Toml
