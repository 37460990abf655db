/-
This file holds the program. It looks at its words and at its surroundings, lets
the rest of the library decide, and prints. Files are read only as far as they
are needed: the configuration is put into an otherwise empty tree. Nothing here
carries connections, so every daemon is out of reach and none is served.
-/

import VmFleet.Program.Run

namespace VmFleet

/-- The variables of the surroundings that say where files are kept. -/
def readEnvironment : IO Environment := do
  pure ⟨← IO.getEnv "HOME", ← IO.getEnv "XDG_CONFIG_HOME", ← IO.getEnv "XDG_CACHE_HOME",
    ← IO.getEnv "XDG_DATA_HOME"⟩

/-- The tree that holds one file of the surroundings. What is there and cannot be
read counts as a directory. -/
def readTree (path : Path) : IO Tree := do
  let put (request : TreeRequest Cause Unit) : Tree := (request.run (Tree.bare ⟨0, 0⟩)).2
  try
    let content ← IO.FS.readBinFile path.display
    pure (put do
      TreeRequest.makePath [] (path.parent?.getD path)
      TreeRequest.writeFile [] path content.toList)
  catch
    | .noFileOrDirectory .. => pure (put (pure ()))
    | _ => pure (put (TreeRequest.makePath [] path))

/-- The path of the configuration that words name. -/
def configPath (environment : Environment) (words : List String) : Path :=
  match CommandLine.parse words with
  | .ok invocation => (invocation.config.map Path.ofString).getD environment.configFile
  | .error _ => environment.configFile

end VmFleet

open VmFleet in
/-- The program: its words are its arguments, and its exit code says how it went. -/
def main (words : List String) : IO UInt32 := do
  let environment ← readEnvironment
  let tree ← readTree (configPath environment words)
  let host : Program.Host := ⟨tree, [], environment, false, 0⟩
  let (ending, _) ← Program.run Client.Link.silent host environment.configFile words
  IO.print ending.output
  match ending.complaint with
  | some complaint => IO.eprintln ("Error: " ++ complaint)
  | none => pure ()
  pure (UInt32.ofNat ending.code)
