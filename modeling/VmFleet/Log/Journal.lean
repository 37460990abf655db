/-
This file holds an outlet in use. A slot holds the outlet; the handle that attaches files and
every writer know only the slot, so an attachment shows to writers that were made before it. A
refused attachment leaves the slot as it was, though it may have made directories.
-/

import VmFleet.Log.Outlet

namespace VmFleet.Log

/-- What is asked of a log. A writer is named by its place in the row of writers. -/
inductive Request
  | makeWriter
  | attach (path : Path)
  | write (writer : Nat) (octets : List UInt8)
  | flush (writer : Nat)
deriving DecidableEq, Repr

/-- What came of a request. -/
inductive Reply
  | made (writer : Nat)
  | attached
  | accepted (count : Nat)
  | flushed
  | refused (cause : Cause)
  /-- No writer has that name. -/
  | writerUnknown
deriving DecidableEq, Repr

/-- A log in use: the files, where the program stands, the slots with what they hold, the slot
of the handle, and the slot of each writer. -/
structure Journal where
  tree : Tree
  place : Location
  slots : List Outlet
  handle : Nat
  writers : List Nat
deriving Repr

namespace Journal

/-- A log before anything is asked of it. -/
def start (tree : Tree) (place : Location) : Journal :=
  ⟨tree, place, [.unattached], 0, []⟩

/-- The outlet that the handle attaches files to. -/
def outlet (journal : Journal) : Outlet :=
  (journal.slots[journal.handle]?).getD .unattached

/-- The outlet that a writer writes to. -/
def outletOf? (journal : Journal) (writer : Nat) : Option Outlet :=
  (journal.writers[writer]?).bind (journal.slots[·]?)

/-- Do what is asked. -/
def serve (journal : Journal) : Request → Journal × Reply
  | .makeWriter =>
    ({ journal with writers := journal.writers ++ [journal.handle] }, .made journal.writers.length)
  | .attach path =>
    match (Outlet.attach journal.place path).run journal.tree with
    | (.ok outlet, tree) =>
      ({ journal with tree, slots := journal.slots.set journal.handle outlet }, .attached)
    | (.error cause, tree) => ({ journal with tree }, .refused cause)
  | .write writer octets =>
    match journal.outletOf? writer with
    | none => (journal, .writerUnknown)
    | some outlet =>
      match (outlet.write octets).run journal.tree with
      | (.ok count, tree) => ({ journal with tree }, .accepted count)
      | (.error cause, tree) => ({ journal with tree }, .refused cause)
  | .flush writer =>
    match journal.outletOf? writer with
    | none => (journal, .writerUnknown)
    | some _ => (journal, .flushed)

/-- Do one thing after the other. -/
def serveAll (journal : Journal) (requests : List Request) : Journal :=
  requests.foldl (fun journal request => (journal.serve request).1) journal

end Journal

end VmFleet.Log
