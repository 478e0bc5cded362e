import NativeMessaging.Files.Tree

/-!
# Settings — Directories

Where a host keeps its settings, its data and its logs.
-/

namespace NativeMessaging

open Files (Tree OsError)

/-- The directories of a host. -/
structure Directories where
  config : Files.Path
  data : Files.Path
  log : Files.Path
  deriving DecidableEq, Repr

/-- A directory that could not be made. -/
structure DirectoryError where
  path : Files.Path
  cause : OsError
  deriving DecidableEq, Repr

def DirectoryError.message (e : DirectoryError) : String :=
  s!"failed to create directory {e.path.text}: {e.cause.message}"

namespace Directories

/-- Everything below one directory. -/
def below (root : Files.Path) : Directories :=
  ⟨root.join "config", root.join "data", (root.join "data").join "logs"⟩

/-- The name under which a host keeps what is its own. -/
def hostName : String := "wyrmhole"

/-- The variables of the environment that say where things are kept. -/
structure Environment where
  home : Option String
  configHome : Option String
  dataHome : Option String
  deriving DecidableEq, Repr

/-- The home of the user, where the environment does not name it. -/
def systemHome : String := "/root"

/-- The directory that a variable names, if it does so from the root. -/
def absolute? (value : Option String) : Option Files.Path :=
  (value.map Files.Path.mk).filter Files.Path.isAbsolute

/-- The directories of the user: those that the environment names, or the customary ones. -/
def discover (environment : Environment) : Directories :=
  let home : Files.Path := ⟨(environment.home.filter (!·.isEmpty)).getD systemHome⟩
  let config := (absolute? environment.configHome).getD (home.join ".config")
  let data := (absolute? environment.dataHome).getD (home.join ".local/share")
  let data := data.join hostName
  ⟨config.join hostName, data, data.join "logs"⟩

/-- Where the settings are. -/
def settingsFile (dirs : Directories) : Files.Path := dirs.config.join "config.toml"

/-- Makes directories in order, up to the first that cannot be made. -/
def makeAll (tree : Tree) : List Files.Path → Except DirectoryError Unit × Tree
  | []      => (.ok (), tree)
  | p :: ps =>
    match tree.makeDirectories p with
    | .ok tree => makeAll tree ps
    | .error e => (.error ⟨p, e⟩, tree)

/-- Makes the directories that are missing. -/
def ensure (dirs : Directories) (tree : Tree) : Except DirectoryError Unit × Tree :=
  makeAll tree [dirs.config, dirs.data, dirs.log]

end Directories

end NativeMessaging
