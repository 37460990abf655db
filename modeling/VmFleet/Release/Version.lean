/-
This file holds release versions: three numbers, the identifiers of a
pre-release and the identifiers of a build. Reading is strict, so every version
has one text, and a text that is no version is refused rather than mended. The
numbers fit 64-bit words; numeric identifiers have no such limit.
-/

import VmFleet.Text.Decimal
import VmFleet.Text.Split

namespace VmFleet

open VmFleet.Text

/-- A release version. An identifier is kept as its characters. -/
structure Version where
  major : UInt64
  minor : UInt64
  patch : UInt64
  prerelease : List (List Char)
  build : List (List Char)
deriving DecidableEq, Repr

namespace Version

/-! ### Text -/

/-- Digits, letters and the hyphen make identifiers. -/
def isIdentifierCharacter (character : Char) : Bool :=
  isDigit character || ('a' ≤ character && character ≤ 'z') ||
    ('A' ≤ character && character ≤ 'Z') || character == '-'

/-- An identifier of digits alone is a number. -/
def isNumeric (identifier : List Char) : Bool :=
  identifier.all isDigit

/-- A number longer than one digit that starts with zero is padded. -/
def isPadded (identifier : List Char) : Bool :=
  isNumeric identifier && identifier.head? == some '0' && decide (identifier.length > 1)

/-- One of the three numbers: digits without padding that fit a word. -/
def number? (text : List Char) : Option UInt64 :=
  if isPadded text then none
  else (decimal? text).bind fun value =>
    if value < word64 then some (UInt64.ofNat value) else none

/-- Identifiers joined by dots; none is empty. -/
def identifiers? (allowPadded : Bool) (text : List Char) : Option (List (List Char)) :=
  let parts := splitOn '.' text
  if parts.all fun part =>
      !part.isEmpty && part.all isIdentifierCharacter && (allowPadded || !isPadded part)
  then some parts else none

/-- The version that a text spells. The build is cut off first, since it may
hold hyphens, and then the pre-release. -/
def parse? (text : String) : Option Version := do
  let (front, build) := cutAt '+' text.toList
  let (core, prerelease) := cutAt '-' front
  let build ← match build with
    | some identifiers => identifiers? true identifiers
    | none => some []
  let prerelease ← match prerelease with
    | some identifiers => identifiers? false identifiers
    | none => some []
  match splitOn '.' core with
  | [major, minor, patch] =>
    some ⟨← number? major, ← number? minor, ← number? patch, prerelease, build⟩
  | _ => none

/-- Identifiers joined by dots after a mark, or nothing when there are none. -/
def renderIdentifiers (mark : Char) (identifiers : List (List Char)) : List Char :=
  if identifiers.isEmpty then [] else mark :: (identifiers.intersperse ['.']).flatten

/-- The text of a version. -/
def render (version : Version) : String :=
  let number := fun (value : UInt64) => (ofNat value.toNat).toList
  String.ofList <| number version.major ++ '.' :: number version.minor ++ '.' ::
    number version.patch ++ renderIdentifiers '-' version.prerelease ++
    renderIdentifiers '+' version.build

/-! ### Order -/

/-- Texts in the order of their characters. -/
def compareText : List Char → List Char → Ordering
  | [], [] => .eq
  | [], _ :: _ => .lt
  | _ :: _, [] => .gt
  | left :: lefts, right :: rights =>
    (compare left.toNat right.toNat).then (compareText lefts rights)

/-- Digits by the value they spell: the longer number is the larger one once
padding is left out. -/
def compareDigits (left right : List Char) : Ordering :=
  (compare left.length right.length).then (compareText left right)

/-- Pre-release identifiers: numbers by value, before words by characters. -/
def comparePrerelease (left right : List Char) : Ordering :=
  match isNumeric left, isNumeric right with
  | true, true => compareDigits left right
  | true, false => .lt
  | false, true => .gt
  | false, false => compareText left right

/-- Build identifiers: as in a pre-release, and of two spellings of one number
the less padded one comes first. -/
def compareBuild (left right : List Char) : Ordering :=
  match isNumeric left, isNumeric right with
  | true, true =>
    (compareDigits (left.dropWhile (· == '0')) (right.dropWhile (· == '0'))).then
      (compare left.length right.length)
  | true, false => .lt
  | false, true => .gt
  | false, false => compareText left right

/-- Rows of identifiers by the first place where they differ; a row that the
other one continues comes first. -/
def compareRows (order : List Char → List Char → Ordering) :
    List (List Char) → List (List Char) → Ordering
  | [], [] => .eq
  | [], _ :: _ => .lt
  | _ :: _, [] => .gt
  | left :: lefts, right :: rights => (order left right).then (compareRows order lefts rights)

/-- Pre-releases: having none comes last, since the release follows them all. -/
def comparePrereleases : List (List Char) → List (List Char) → Ordering
  | [], [] => .eq
  | [], _ :: _ => .gt
  | _ :: _, [] => .lt
  | lefts, rights => compareRows comparePrerelease lefts rights

/-- The order of versions: the three numbers, then the pre-release, then the
build, where having none comes first. -/
def order (left right : Version) : Ordering :=
  (compare left.major right.major).then <|
  (compare left.minor right.minor).then <|
  (compare left.patch right.patch).then <|
  (comparePrereleases left.prerelease right.prerelease).then <|
  compareRows compareBuild left.build right.build

/-- Not later than. -/
def notAfter (left right : Version) : Bool :=
  order left right != .gt

/-- Versions from the earliest to the latest. -/
def ascending (versions : List Version) : List Version :=
  versions.mergeSort notAfter

end Version

end VmFleet
