/-
This file turns the arguments of printing commands into octets. A backslash
starts an escape: a letter for a control character, or up to three octal digits
for an octet. A format is read once into parts and then used over and over until
it has taken every argument.
-/

import VmFleet.Shell.Arithmetic
import VmFleet.Text.Utf8

namespace VmFleet.Shell

open VmFleet.Text

/-- The octets of one character. -/
def octetsOfCharacter (character : Char) : List UInt8 :=
  octetsOf (String.singleton character)

/-! ### Escapes -/

/-- The letters that stand for control characters after a backslash. -/
def escapeLetters : List (Char × UInt8) :=
  [('a', 7), ('b', 8), ('f', 12), ('n', 10), ('r', 13), ('t', 9), ('v', 11), ('\\', 0x5C)]

/-- The octal digits at the start of a text, at most so many. -/
def octalDigits (most : Nat) (text : List Char) : List Char :=
  (text.take most).takeWhile fun character => '0' ≤ character && character ≤ '7'

/-- The octet that octal digits spell; only its last eight bits count. -/
def octalOctet (digits : List Char) : UInt8 :=
  UInt8.ofNat (digits.foldl (fun total digit => 8 * total + (digit.toNat - '0'.toNat)) 0)

/-- What an escape stands for, and the text after it. A backslash that starts no
escape stands for itself. -/
def readEscape (text : List Char) : List UInt8 × List Char :=
  match octalDigits 3 text with
  | [] =>
    match text with
    | letter :: rest =>
      match escapeLetters.lookup letter with
      | some octet => ([octet], rest)
      | none => ([0x5C], text)
    | [] => ([0x5C], [])
  | digits => ([octalOctet digits], text.drop digits.length)

/-- The octets of an argument whose escapes count, and whether printing goes on
after it. A zero may stand before the octal digits, and one escape ends it all. -/
def unescape : Nat → List UInt8 → List Char → List UInt8 × Bool
  | 0, done, _ => (done, true)
  | _ + 1, done, [] => (done, true)
  | _ + 1, done, '\\' :: 'c' :: _ => (done, false)
  | steps + 1, done, '\\' :: '0' :: text =>
    let digits := octalDigits 3 text
    unescape steps (done ++ [octalOctet digits]) (text.drop digits.length)
  | steps + 1, done, '\\' :: text =>
    let (octets, rest) := readEscape text
    unescape steps (done ++ octets) rest
  | steps + 1, done, character :: text =>
    unescape steps (done ++ octetsOfCharacter character) text

/-- What the printing of a row of arguments gives. -/
def echoed (arguments : List String) : List UInt8 :=
  let (unbroken, arguments) := match arguments with
    | "-n" :: rest => (true, rest)
    | all => (false, all)
  let text := (String.intercalate " " arguments).toList
  let (octets, goesOn) := unescape (text.length + 1) [] text
  if unbroken || !goesOn then octets else octets ++ [10]

/-! ### Formats -/

/-- A part of a format. -/
inductive Part
  | octets (octets : List UInt8)
  | conversion (flags : List Char) (width : Nat) (precision : Option Nat) (kind : Char)
deriving DecidableEq, Repr

/-- A conversion after its sign. -/
def readConversion (text : List Char) : Option (Part × List Char) :=
  let flags := text.takeWhile fun character => "-0+ #".toList.contains character
  let text := text.drop flags.length
  let width := text.takeWhile isDigit
  let (precision, text) := match text.drop width.length with
    | '.' :: text =>
      let digits := text.takeWhile isDigit
      (some ((decimal? digits).getD 0), text.drop digits.length)
    | text => (none, text)
  match text with
  | kind :: rest => some (.conversion flags ((decimal? width).getD 0) precision kind, rest)
  | [] => none

/-- The parts of a format. -/
def readFormat : Nat → List Part → List Char → List Part
  | 0, done, _ => done
  | _ + 1, done, [] => done
  | steps + 1, done, '%' :: '%' :: text => readFormat steps (done ++ [.octets [0x25]]) text
  | steps + 1, done, '%' :: text =>
    match readConversion text with
    | some (part, rest) => readFormat steps (done ++ [part]) rest
    | none => done
  | steps + 1, done, '\\' :: text =>
    let (octets, rest) := readEscape text
    readFormat steps (done ++ [.octets octets]) rest
  | steps + 1, done, character :: text =>
    readFormat steps (done ++ [.octets (octetsOfCharacter character)]) text

/-- Octets brought to a width with blanks or zeros. -/
def pad (flags : List Char) (width : Nat) (numeric : Bool) (octets : List UInt8) : List UInt8 :=
  let missing := width - octets.length
  if flags.contains '-' then octets ++ List.replicate missing 0x20
  else if numeric && flags.contains '0' then
    match octets with
    | 0x2D :: digits => 0x2D :: List.replicate missing 0x30 ++ digits
    | digits => List.replicate missing 0x30 ++ digits
  else List.replicate missing 0x20 ++ octets

/-- A number in a base between two and sixteen. -/
def inBase (base : Nat) (number : Int) : String :=
  String.ofList (Nat.toDigits base number.toNat)

/-- What a conversion makes of an argument. -/
def convert (flags : List Char) (width : Nat) (precision : Option Nat) (kind : Char)
    (argument : String) : List UInt8 :=
  let cut (octets : List UInt8) : List UInt8 := octets.take (precision.getD octets.length)
  let number := wholeNumber argument
  match kind with
  | 's' => pad flags width false (cut (octetsOf argument))
  | 'b' => pad flags width false (cut (unescape (argument.length + 1) [] argument.toList).1)
  | 'c' => pad flags width false ((octetsOf argument).take 1)
  | 'd' | 'i' | 'u' => pad flags width true (octetsOf (toString number))
  | 'x' => pad flags width true (octetsOf (inBase 16 number))
  | 'o' => pad flags width true (octetsOf (inBase 8 number))
  | _ => []

/-- Use a format once, and tell which arguments are left. -/
def formatOnce : List Part → List String → List UInt8 × List String
  | [], arguments => ([], arguments)
  | .octets octets :: parts, arguments =>
    let (rest, left) := formatOnce parts arguments
    (octets ++ rest, left)
  | .conversion flags width precision kind :: parts, arguments =>
    let (rest, left) := formatOnce parts arguments.tail
    (convert flags width precision kind (arguments.headD "") ++ rest, left)

/-- Use a format until no argument is left, at most so often. -/
def formatAll (parts : List Part) : Nat → List String → List UInt8
  | 0, _ => []
  | steps + 1, arguments =>
    let (octets, left) := formatOnce parts arguments
    if left.isEmpty || left.length = arguments.length then octets
    else octets ++ formatAll parts steps left

/-- What a format gives with its arguments. -/
def formatted (format : String) (arguments : List String) : List UInt8 :=
  formatAll (readFormat (format.length + 1) [] format.toList) (arguments.length + 1) arguments

end VmFleet.Shell
