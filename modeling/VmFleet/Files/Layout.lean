/-
This file holds where things lie: the directory of an image in the store, the
directory of a machine under the run root with its console link and its log, and
the paths that hold when the configuration names none. Names are joined as they
come, so a name with slashes leads elsewhere.
-/

import VmFleet.Files.Path

namespace VmFleet

namespace Layout

/-- The directory of an image. -/
def imageDirectory (store : Path) (channel version : String) : Path :=
  (store.child channel).child version

/-- The directory of a machine. -/
def vmDirectory (runRoot : Path) (uuid : String) : Path :=
  runRoot.child uuid

/-- The console link that a runner makes for its machine. -/
def console (runRoot : Path) (uuid : String) : Path :=
  (vmDirectory runRoot uuid).child "tty"

/-- The output of the runner of a machine. -/
def log (runRoot : Path) (uuid : String) : Path :=
  (vmDirectory runRoot uuid).child "log"

/-- The log of the daemon itself. -/
def daemonLog (runRoot : Path) : Path :=
  runRoot.child "flotilla.log"

end Layout

/-- The variables that say where a person keeps files. -/
structure Environment where
  home : Option String
  configHome : Option String
  cacheHome : Option String
  dataHome : Option String
deriving Repr

namespace Environment

/-- A directory named by a variable, if it is absolute; else one under the home
directory; else the fallback. -/
def directory (environment : Environment) (setting : Option String) (underHome : String)
    (fallback : String) : Path :=
  let named := (setting.map Path.ofString).filter (·.isAbsolute)
  match named, environment.home with
  | some path, _ => path
  | none, some home => (Path.ofString home).child underHome
  | none, none => Path.ofString fallback

/-- Where the configuration is looked for. -/
def configFile (environment : Environment) : Path :=
  ((environment.directory environment.configHome ".config" "/etc").child "flotilla").child
    "daemon.toml"

/-- Where images are kept. -/
def storeRoot (environment : Environment) : Path :=
  ((environment.directory environment.cacheHome ".cache" "/tmp").child "flotilla").child "images"

/-- Where running machines are kept. -/
def runRoot (environment : Environment) : Path :=
  ((environment.directory environment.dataHome ".local/share" "/tmp").child "flotilla").child
    "running"

end Environment

end VmFleet
