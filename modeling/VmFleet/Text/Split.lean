/-
This file cuts text at separators. Cutting loses nothing but the separators: the
parts joined by the separator give the text back, and no part holds one.
-/

namespace VmFleet.Text

/-- The parts between separators; a text has one part more than separators. -/
def splitOn (separator : Char) : List Char → List (List Char)
  | [] => [[]]
  | character :: text =>
    if character = separator then [] :: splitOn separator text
    else
      match splitOn separator text with
      | part :: parts => (character :: part) :: parts
      | [] => [[character]]

/-- The text up to the first separator, and what follows it if it is there. -/
def cutAt (separator : Char) (text : List Char) : List Char × Option (List Char) :=
  match text.dropWhile (· != separator) with
  | [] => (text, none)
  | _ :: rest => (text.takeWhile (· != separator), some rest)

end VmFleet.Text
