/-
This file follows the output of a runner. The output is cut into lines; each line
goes into the log with a line break, and the first one that reports an address
gives the address. Output that is no text ends the reading where its line starts.
-/

import VmFleet.Address.Report
import VmFleet.Text.Utf8

namespace VmFleet.Runner

open VmFleet.Text

/-- The octet of the line feed. -/
def lineFeed : UInt8 := 0x0A

/-- The octet of the carriage return. -/
def carriageReturn : UInt8 := 0x0D

/-- The lines of an output without their line breaks. What follows the last line
break is a line too, unless it is empty. -/
def lines : List UInt8 → List (List UInt8)
  | [] => []
  | octet :: octets =>
    if octet = lineFeed then [] :: lines octets
    else
      match lines octets with
      | line :: rest => (octet :: line) :: rest
      | [] => [[octet]]

/-- A line without the carriage return before its line break. -/
def withoutReturn (line : List UInt8) : List UInt8 :=
  if line.getLast? = some carriageReturn then line.dropLast else line

/-- What has been seen of the output of a runner. -/
structure Followed where
  /-- What was appended to the log. -/
  logged : List UInt8
  address : Option String
deriving DecidableEq, Repr

namespace Followed

/-- Nothing seen. -/
def nothing : Followed :=
  ⟨[], none⟩

/-- Take one more line. -/
def takeLine (followed : Followed) (line : String) : Followed where
  logged := followed.logged ++ octetsOf line ++ [lineFeed]
  address := followed.address.or (Report.address? line)

/-- Take lines up to the first one that is no text. -/
def takeLines (followed : Followed) : List (List UInt8) → Followed
  | [] => followed
  | line :: rest =>
    match decode? line with
    | some text => takeLines (followed.takeLine text) rest
    | none => followed

end Followed

/-- Whether the last line of an output has its line break. -/
def endsLine (output : List UInt8) : Bool :=
  output.isEmpty || output.getLast? == some lineFeed

/-- The lines of an output as they are read. Only a line break takes the carriage
return before it away. -/
def readLines (output : List UInt8) : List (List UInt8) :=
  let all := lines output
  if endsLine output then all.map withoutReturn
  else all.dropLast.map withoutReturn ++ all.getLast?.toList

/-- Follow a whole output. -/
def follow (output : List UInt8) : Followed :=
  Followed.nothing.takeLines (readLines output)

/-- Follow the lines of an output that is still going on. -/
def followSoFar (output : List UInt8) : Followed :=
  let all := readLines output
  Followed.nothing.takeLines (if endsLine output then all else all.dropLast)

end VmFleet.Runner
