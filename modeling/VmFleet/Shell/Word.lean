/-
This file reads the words of shell scripts. A word keeps what was quoted apart
from what was not, since only the latter is split again after its parameters are
filled in. Every reader takes its steps from the length of the text.
-/

import VmFleet.Text.Decimal
import VmFleet.Text.Reader

namespace VmFleet.Shell

open VmFleet.Text

/-! ### Words -/

/-- A piece of a word. -/
inductive Piece
  | text (content : String)
  | parameter (name : String)
  | arithmetic (expression : String)
deriving DecidableEq, Repr

/-- A word: pieces with a mark on the quoted ones. -/
structure Word where
  pieces : List (Piece × Bool)
deriving DecidableEq, Repr

/-- The quote between which everything stands for itself. -/
def strongQuote : Char := Char.ofNat 0x27

/-- The characters that end a word. -/
def endsWord (character : Char) : Bool :=
  " \t\n;&|()<>".toList.contains character

/-- The characters of a parameter name. -/
def isNameCharacter (character : Char) : Bool :=
  isDigit character || ('a' ≤ character && character ≤ 'z') ||
    ('A' ≤ character && character ≤ 'Z') || character == '_'

/-- The text up to two closing parentheses that close as many as were opened. -/
def readArithmetic : Nat → List Char → Reader (List Char)
  | 0, done, ')' :: ')' :: text => some (done.reverse, text)
  | depth + 1, done, ')' :: text => readArithmetic depth (')' :: done) text
  | depth, done, '(' :: text => readArithmetic (depth + 1) ('(' :: done) text
  | depth, done, character :: text => readArithmetic depth (character :: done) text
  | _, _, [] => none

/-- What follows a dollar sign. A dollar sign before anything else stands for
itself. -/
def readDollar (text : List Char) : Piece × List Char :=
  match text with
  | '(' :: '(' :: rest =>
    match readArithmetic 0 [] rest with
    | some (expression, rest) => (Piece.arithmetic (String.ofList expression), rest)
    | none => (Piece.text "$", text)
  | '\x7b' :: rest =>
    let name := rest.takeWhile isNameCharacter
    match rest.drop name.length with
    | '\x7d' :: after => (.parameter (String.ofList name), after)
    | _ => (Piece.text "$", text)
  | character :: rest =>
    if isDigit character || "?$#!@*".toList.contains character then
      (.parameter (String.singleton character), rest)
    else
      let name := text.takeWhile isNameCharacter
      if name.isEmpty then (Piece.text "$", text)
      else (.parameter (String.ofList name), text.drop name.length)
  | [] => (Piece.text "$", [])

/-- The pieces of a text between double quotes, up to the closing one. -/
def readQuoted : Nat → List (Piece × Bool) → Reader (List (Piece × Bool))
  | 0, _, _ => none
  | _ + 1, _, [] => none
  | steps + 1, done, character :: text =>
    if character = '"' then some (done, text)
    else if character = '$' then
      let (piece, rest) := readDollar text
      readQuoted steps (done ++ [(piece, true)]) rest
    else if character = '\\' then
      match text with
      | '\n' :: rest => readQuoted steps done rest
      | escaped :: rest =>
        let kept := if "$\"\\`".toList.contains escaped then [escaped] else ['\\', escaped]
        readQuoted steps (done ++ [(Piece.text (String.ofList kept), true)]) rest
      | [] => none
    else readQuoted steps (done ++ [(Piece.text (String.singleton character), true)]) text

/-- The pieces of a word. -/
def readPieces : Nat → List (Piece × Bool) → Reader (List (Piece × Bool))
  | 0, done, text => some (done, text)
  | _ + 1, done, [] => some (done, [])
  | steps + 1, done, character :: text =>
    if endsWord character then some (done, character :: text)
    else if character = strongQuote then
      let content := text.takeWhile (· != strongQuote)
      match text.drop content.length with
      | _ :: rest => readPieces steps (done ++ [(Piece.text (String.ofList content), true)]) rest
      | [] => none
    else if character = '"' then
      match readQuoted (text.length + 1) (done ++ [(Piece.text "", true)]) text with
      | some (pieces, rest) => readPieces steps pieces rest
      | none => none
    else if character = '\\' then
      match text with
      | '\n' :: rest => readPieces steps done rest
      | escaped :: rest =>
        readPieces steps (done ++ [(Piece.text (String.singleton escaped), true)]) rest
      | [] => some (done ++ [(Piece.text "\\", true)], [])
    else if character = '$' then
      let (piece, rest) := readDollar text
      readPieces steps (done ++ [(piece, false)]) rest
    else readPieces steps (done ++ [(Piece.text (String.singleton character), false)]) text

/-- The text of a word without quotes and parameters. -/
def Word.plain? (word : Word) : Option String :=
  (word.pieces.mapM fun (piece, quoted) =>
    match piece, quoted with
    | Piece.text content, false => some content
    | _, _ => none).map String.join

end VmFleet.Shell
