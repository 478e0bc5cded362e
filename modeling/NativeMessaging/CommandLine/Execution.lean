import NativeMessaging.CommandLine.Help
import NativeMessaging.CommandLine.Listing
import NativeMessaging.CommandLine.Parser
import NativeMessaging.Host.Session
import NativeMessaging.Settings.Load

/-!
# CommandLine — Execution

What the program does for its arguments.  Whatever it is asked to do, it first loads the settings and
prepares the logs; then it prints something or serves a browser.
-/

namespace NativeMessaging.CommandLine

open Files (Tree)

/-- The file with the settings: the one that was given, or that of the host's directories. -/
def Invocation.settingsPath (invocation : Invocation) (dirs : Directories) : Files.Path :=
  match invocation.settingsFile with
  | some file => ⟨file⟩
  | none      => dirs.settingsFile

/-- Loads the settings; those of the host's directories need not be there. -/
def Invocation.loadSettings (invocation : Invocation) (tree : Tree) (dirs : Directories) :
    Except Settings.LoadError Settings × Tree :=
  match invocation.settingsFile with
  | some file => (Settings.load tree ⟨file⟩, tree)
  | none      => Settings.loadOrDefault tree dirs

/-- What the program does. -/
inductive Doing where
  | prints (text : String)
  | fails (status : Nat)
  | serves (session : Host.Session)

/-- The exit status for wrong arguments. -/
def usageStatus : Nat := 2

/-- The exit status where the program cannot start. -/
def failureStatus : Nat := 1

/-- What the program does for an invocation, once its settings are loaded. -/
def Invocation.doing (invocation : Invocation) (tree : Tree) (dirs : Directories)
    (settings : Settings) : Doing :=
  match invocation.command with
  | some .listPlugins      => .prints (pluginListing settings)
  | some .showSettingsFile => .prints ((invocation.settingsPath dirs).text ++ "\n")
  | some (.run _)          => .serves (.start settings tree)
  | none                   => .serves (.start settings tree)

/-- Loads the settings and prepares the logs, and then does what was asked for. -/
def Invocation.execute (invocation : Invocation) (tree : Tree) (dirs : Directories) : Doing × Tree :=
  match invocation.loadSettings tree dirs with
  | (.error _, tree)     => (.fails failureStatus, tree)
  | (.ok settings, tree) =>
    match Logs.prepare settings.logging dirs tree with
    | (.error _, tree) => (.fails failureStatus, tree)
    | (.ok (), tree)   => (invocation.doing tree dirs settings, tree)

/-- What the program does for its arguments. -/
def execute (args : List String) (environment : Directories.Environment) (tree : Tree) :
    Doing × Tree :=
  match parse args with
  | .ok invocation         => invocation.execute tree (.discover environment)
  | .error (.help topic)   => (.prints topic.helpText, tree)
  | .error .version        => (.prints versionText, tree)
  | .error (.wrong _)      => (.fails usageStatus, tree)

end NativeMessaging.CommandLine
