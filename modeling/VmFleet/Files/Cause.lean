/-
This file holds the reasons for which the operating system refuses a request,
with the text and the number under which it reports them, and why it may hold on
to a thing that somebody wants to take away.
-/

namespace VmFleet

/-- Why the operating system refused. -/
inductive Cause
  | notPermitted
  | noEntry
  | badFormat
  | accessDenied
  | busy
  | alreadyThere
  | notDirectory
  | isDirectory
  | invalid
  | readOnly
  | nameTooLong
  | notEmpty
  | linkLoop
  /-- A name with a zero octet cannot be handed to the system at all. -/
  | zeroOctet
  /-- Text that is not made of characters cannot be read as text. -/
  | notText
  /-- The named thing is not there, said without a number. -/
  | missing
  /-- A reason in the words of somebody else. -/
  | other (message : String)
deriving DecidableEq, Repr

namespace Cause

/-- The text with the number the system gives. -/
def numbered (words : String) (number : Nat) : String :=
  words ++ " (os error " ++ toString number ++ ")"

/-- How the reason reads. -/
def message : Cause → String
  | notPermitted => numbered "Operation not permitted" 1
  | noEntry => numbered "No such file or directory" 2
  | badFormat => numbered "Exec format error" 8
  | accessDenied => numbered "Permission denied" 13
  | busy => numbered "Device or resource busy" 16
  | .alreadyThere => numbered "File exists" 17
  | notDirectory => numbered "Not a directory" 20
  | isDirectory => numbered "Is a directory" 21
  | invalid => numbered "Invalid argument" 22
  | readOnly => numbered "Read-only file system" 30
  | nameTooLong => numbered "File name too long" 36
  | notEmpty => numbered "Directory not empty" 39
  | linkLoop => numbered "Too many levels of symbolic links" 40
  | zeroOctet => "file name contained an unexpected NUL byte"
  | notText => "stream did not contain valid UTF-8"
  | missing => "entity not found"
  | other message => message

end Cause

/-- Why the system lets nobody take a thing away. -/
inductive Hold
  /-- It is marked as immutable. -/
  | immutable
  /-- The directory that it lies in may not be written. -/
  | unwritable
  /-- Something is mounted there. -/
  | mounted
  /-- It lies in a file system that is only read. -/
  | readOnly
deriving DecidableEq, Repr

/-- How the system reports it. -/
def Hold.cause : Hold → Cause
  | immutable => .notPermitted
  | unwritable => .accessDenied
  | mounted => .busy
  | readOnly => .readOnly

end VmFleet
