/-
This file plans boots. A plan is a complete call of the runner: the program, its
arguments in order and the log that takes its output. A plan is only made when
the image is whole and everything that is to be attached exists.
-/

import VmFleet.Boot.RunDirectory
import VmFleet.Vm.Record

namespace VmFleet

open VmFleet.Text

/-- A call of the runner. -/
structure BootPlan where
  program : Path
  arguments : List String
  log : Path
deriving DecidableEq, Repr

namespace BootPlan

/-- The kernel command line: the console, the identity, and what the draft adds. -/
def kernelLine (vm : Vm) : String :=
  "console=ttyS0 uuid=" ++ vm.uuid ++ if vm.kernelArgs = "" then "" else " " ++ vm.kernelArgs

/-- The arguments of the runner, in the order in which it expects them. -/
def argumentsFor (vm : Vm) (places : RunDirectory) (kernel : Path) (initrd : Option Path) :
    List String :=
  ["--uuid", vm.uuid, "--mac", vm.mac, "--memory", ofNat vm.memoryMb.toNat,
    "--cpus", ofNat vm.cpus.toNat, "--kernel", kernel.display] ++
  (initrd.map fun path => ["--initrd", path.display]).getD [] ++
  ["--cmdline", kernelLine vm, "--tty", places.console.display] ++
  vm.storage.flatMap (fun volume => ["--disk", volume]) ++
  (vm.cdrom.map fun path => ["--cdrom", path]).getD [] ++
  vm.runnerArgs

/-- The plan for a machine, or the first thing that stands in its way: an image
that is not whole, a volume or a disc that is not there, or a store without
artifacts to boot from. The first artifact is the kernel and the second, if
there is one, the initial file system. -/
def make (store : ImageStore) (runner : Path) (vm : Vm) (places : RunDirectory) (tree : Tree) :
    Except FleetError BootPlan := do
  let image := store.versionDirectory vm.channel vm.version
  unless store.isComplete tree image do
    throw (.imageNotFound vm.channel vm.version)
  match vm.storage.find? fun volume => !tree.pathExists [] (Path.ofString volume) with
  | some volume => throw (.validation ("volume '" ++ volume ++ "' does not exist"))
  | none => pure ()
  match vm.cdrom.filter fun disc => !tree.isFile [] (Path.ofString disc) with
  | some disc => throw (.validation ("cdrom image '" ++ disc ++ "' does not exist"))
  | none => pure ()
  match store.artifacts with
  | [] => throw (.validation "image store has no boot artifacts configured")
  | kernel :: others =>
    pure
      { program := runner
        arguments := argumentsFor vm places (image.child kernel) (others.head?.map image.child)
        log := places.log }

end BootPlan

end VmFleet
