import NativeMessaging.CommandLine.Basic

/-!
# CommandLine — Help

The texts that the program prints about itself: the version, and the help on each of its commands.
-/

namespace NativeMessaging.CommandLine

/-- The name of the program. -/
def programName : String := "wyrmhole"

/-- The version of the program. -/
def version : String := "0.1.0"

/-- What is printed for the version. -/
def versionText : String := s!"{programName} {version}\n"

/-- An entry of a list: its name and what it is. -/
structure Entry where
  name : String
  about : String
  deriving DecidableEq, Repr

/-- A line of a list, its names padded to one width. -/
def Entry.line (width : Nat) (entry : Entry) : String :=
  "  " ++ entry.name ++ String.ofList (List.replicate (width - entry.name.length) ' ') ++
    "  " ++ entry.about ++ "\n"

/-- A list under its title; nothing where there are no entries. -/
def titled (title : String) (entries : List Entry) : String :=
  if entries.isEmpty then ""
  else
    let width := (entries.map fun entry => entry.name.length).foldl max 0
    "\n" ++ title ++ ":\n" ++ String.join (entries.map (Entry.line width))

namespace Topic

/-- What a command does. -/
def about : Topic → String
  | .program          => "Native-messaging host bridging browser extensions to plugins"
  | .run              => "Serve the extension over stdin/stdout (the default)"
  | .plugins          => "Plugin management commands"
  | .listPlugins      => "List configured mimetypes and their executables"
  | .settings         => "Configuration helpers"
  | .showSettingsFile => "Print the config file location"
  | .help             => "Print this message or the help of the given subcommand(s)"
  | .helpOnPlugins    => "Print this message or the help of the given subcommand(s)"
  | .helpOnSettings   => "Print this message or the help of the given subcommand(s)"

/-- How a command is called: the words that lead to it, and what follows them. -/
def usage : Topic → List String
  | .program          =>
    [s!"{programName} [OPTIONS] [BROWSER_ARGS]...", s!"{programName} <COMMAND>"]
  | .run              => [s!"{programName} run [OPTIONS] [BROWSER_ARGS]..."]
  | .plugins          => [s!"{programName} plugins [OPTIONS] <COMMAND>"]
  | .listPlugins      => [s!"{programName} plugins list [OPTIONS]"]
  | .settings         => [s!"{programName} config [OPTIONS] <COMMAND>"]
  | .showSettingsFile => [s!"{programName} config path [OPTIONS]"]
  | .help             => [s!"{programName} help [COMMAND]..."]
  | .helpOnPlugins    => [s!"{programName} plugins help [COMMAND]..."]
  | .helpOnSettings   => [s!"{programName} config help [COMMAND]..."]

/-- The help on a help command. -/
def isHelp : Topic → Bool
  | .help           => true
  | .helpOnPlugins  => true
  | .helpOnSettings => true
  | _               => false

/-- The list of the commands below a command. -/
def commandEntries (topic : Topic) : List Entry :=
  if topic.hasCommands then
    topic.commands.map (fun (name, inner) => ⟨name, inner.about⟩) ++
      [⟨helpName, topic.aboutHelp.about⟩]
  else []

/-- The list of the arguments of a command. -/
def argumentEntries (topic : Topic) : List Entry :=
  if topic.takesArguments then
    [⟨"[BROWSER_ARGS]...", "Arguments the browser appends (caller origin or manifest path)"⟩]
  else if topic.isHelp then [⟨"[COMMAND]...", "Print help for the subcommand(s)"⟩]
  else []

/-- The list of the options of a command. -/
def optionEntries (topic : Topic) : List Entry :=
  if topic.isHelp then []
  else
    [⟨"    --config <PATH>", "Config file override (defaults to the platform config dir)"⟩,
      ⟨"-h, --help", "Print help"⟩] ++
    if topic = .program then [⟨"-V, --version", "Print version"⟩] else []

/-- The help on a command. -/
def helpText (topic : Topic) : String :=
  topic.about ++ "\n\nUsage: " ++ String.intercalate "\n       " topic.usage ++ "\n" ++
    titled "Commands" topic.commandEntries ++
    titled "Arguments" topic.argumentEntries ++
    titled "Options" topic.optionEntries

end Topic

end NativeMessaging.CommandLine
