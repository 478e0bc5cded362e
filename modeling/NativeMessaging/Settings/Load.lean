import NativeMessaging.Files.Retention
import NativeMessaging.Settings.Directories
import NativeMessaging.Settings.Document

/-!
# Settings — Load

Loads settings from their file, and tidies the directory of the logs.  Nothing is logged here: the file
of the day, which a logger opens behind the clean-up, is left out.
-/

namespace NativeMessaging

open Files (Tree OsError)

namespace Settings

/-- Why settings cannot be loaded. -/
inductive LoadError where
  | unreadable (path : Files.Path) (cause : Tree.ReadError)
  | notToml (path : Files.Path)
  | shape (path : Files.Path) (mismatch : Shape.Mismatch)
  | invalid (violation : Violation)
  | directories (cause : DirectoryError)
  deriving DecidableEq, Repr

/-- The wording of an error; what is wrong with a document is said alone, and nothing of one that is
not TOML. -/
def LoadError.message : LoadError → Option String
  | .unreadable path cause => some s!"failed to read config at {path.text}: {cause.message}"
  | .notToml _             => none
  | .shape _ mismatch      => some mismatch.message
  | .invalid violation     => some s!"config validation failed: {violation.message}"
  | .directories cause     =>
    some s!"failed to prepare configuration directories: {cause.message}"

/-- Settings from the text of a document. -/
def ofText (path : Files.Path) (text : String) : Except LoadError Settings := do
  match Toml.parse text with
  | none       => .error (.notToml path)
  | some value =>
    let settings ← (ofValue value).mapError (.shape path)
    (settings.check).mapError .invalid
    .ok settings

/-- Loads the settings of a file. -/
def load (tree : Tree) (path : Files.Path) : Except LoadError Settings := do
  ofText path (← (tree.readText path).mapError (.unreadable path))

/-- Makes the directories of a host and loads its settings, if it has any. -/
def loadOrDefault (tree : Tree) (dirs : Directories) : Except LoadError Settings × Tree :=
  match dirs.ensure tree with
  | (.error e, tree) => (.error (.directories e), tree)
  | (.ok (), tree)   =>
    if tree.exists? dirs.settingsFile then (load tree dirs.settingsFile, tree)
    else (.ok default, tree)

end Settings

namespace Logs

/-- Why the logs cannot be prepared. -/
inductive Error where
  | createDirectory (path : Files.Path) (cause : OsError)
  | readDirectory (path : Files.Path) (cause : OsError)
  | cleanup (path : Files.Path) (cause : OsError)
  deriving DecidableEq, Repr

def Error.message : Error → String
  | .createDirectory path cause =>
    s!"failed to create log directory {path.text}: {cause.message}"
  | .readDirectory path cause   => s!"failed to list log directory {path.text}: {cause.message}"
  | .cleanup path cause         =>
    s!"failed to remove old log file {path.text}: {cause.message}"

/-- The name of the log where none is set. -/
def defaultName : String := "wyrmhole.log"

/-- Makes the directory of the logs and removes the logs that are too many.  The logger then opens the
log of the day in that directory; that it does so, and the file it makes, is not part of this. -/
def prepare (logging : Settings.Logging) (dirs : Directories) (tree : Tree) :
    Except Error Unit × Tree :=
  match tree.makeDirectories dirs.log with
  | .error e => (.error (.createDirectory dirs.log e), tree)
  | .ok tree =>
    let stem := logging.fileName.getD defaultName
    match Files.Retention.clean tree dirs.log stem logging.maxFiles with
    | .error e              => (.error (.readDirectory dirs.log e), tree)
    | .ok (none, tree)      => (.ok (), tree)
    | .ok (some name, tree) => (.error (.cleanup (dirs.log.join name) .isDirectory), tree)

end Logs

end NativeMessaging
