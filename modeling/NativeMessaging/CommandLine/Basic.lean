/-!
# CommandLine — Basic

What the arguments of the program can ask for, and the ways in which they can be wrong.
-/

namespace NativeMessaging.CommandLine

/-- A command that was given by name. -/
inductive Command where
  | run (arguments : List String)
  | listPlugins
  | showSettingsFile
  deriving DecidableEq, Repr

/-- What the program is asked to do: with which settings file, by which command, and the arguments that
were given without a command. -/
structure Invocation where
  settingsFile : Option String
  command : Option Command
  arguments : List String
  deriving DecidableEq, Repr

/-- The arguments that a browser appended, where a host is to run; the first one identifies the
caller. -/
def Invocation.browserArguments (invocation : Invocation) : Option (List String) :=
  match invocation.command with
  | none                    => some invocation.arguments
  | some (.run arguments)   => some arguments
  | some .listPlugins       => none
  | some .showSettingsFile  => none

/-- The caller, where a browser appended arguments. -/
def Invocation.origin (invocation : Invocation) : Option String :=
  invocation.browserArguments.bind List.head?

/-- What help can be about: the program, or one of its commands. -/
inductive Topic where
  | program
  | run
  | plugins
  | listPlugins
  | settings
  | showSettingsFile
  | help
  | helpOnPlugins
  | helpOnSettings
  deriving DecidableEq, Repr

/-- How arguments can be wrong. -/
inductive UsageError where
  | invalidValue
  | argumentConflict
  | unknownArgument
  | tooManyValues
  | invalidSubcommand
  | missingSubcommand
  | missingArgument
  deriving DecidableEq, Repr

/-- Why arguments ask for nothing to be done: they ask for help or for the version, or they are
wrong. -/
inductive Stop where
  | help (topic : Topic)
  | version
  | wrong (error : UsageError)
  deriving DecidableEq, Repr

namespace Topic

/-- The name of the command that asks for help. -/
def helpName : String := "help"

/-- The commands below a command, by name. -/
def commands : Topic → List (String × Topic)
  | .program  => [("run", .run), ("plugins", .plugins), ("config", .settings)]
  | .plugins  => [("list", .listPlugins)]
  | .settings => [("path", .showSettingsFile)]
  | _         => []

/-- The help about the help below a command. -/
def aboutHelp : Topic → Topic
  | .plugins  => .helpOnPlugins
  | .settings => .helpOnSettings
  | _         => .help

/-- Help is a command wherever there are commands. -/
def hasCommands (topic : Topic) : Bool := !topic.commands.isEmpty

/-- Whether a command takes what a browser appends. -/
def takesArguments : Topic → Bool
  | .program => true
  | .run     => true
  | _        => false

/-- Whether an option before a command keeps it from being one. -/
def isExclusive (topic : Topic) : Bool := topic == .program

/-- Whether one of the commands below has to follow. -/
def needsCommand (topic : Topic) : Bool := topic.hasCommands && !topic.takesArguments

end Topic

end NativeMessaging.CommandLine
