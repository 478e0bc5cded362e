import NativeMessaging.CommandLine.Basic

/-!
# CommandLine — Parser

Reads the arguments of the program.  Options and commands are looked for up to the first argument that
belongs to the browser; that one and all behind it are taken as they are.
-/

namespace NativeMessaging.CommandLine

/-- A flag that takes no value. -/
inductive Flag where
  | help
  | version
  deriving DecidableEq, Repr

namespace Topic

/-- The flags of a command by their letters; only the program has a version. -/
def letters (topic : Topic) : List (Char × Flag) :=
  if topic = .program then [('h', .help), ('V', .version)] else [('h', .help)]

/-- The flags of a command by their names. -/
def flags (topic : Topic) : List (String × Flag) :=
  if topic = .program then [("help", .help), ("version", .version)] else [("help", .help)]

end Topic

/-- The name of the option that takes the settings file. -/
def settingsOption : String := "config"

/-- The settings file of a command: given, or about to be given by the option that came last, whose
value may not have come yet. -/
structure Options where
  settingsFile : Option String
  pending : Option (Option String)
  deriving DecidableEq, Repr

namespace Options

def none : Options := ⟨.none, .none⟩

/-- The option came last, and its value has not come. -/
def isWaiting (options : Options) : Bool := options.pending == some .none

/-- Some option came. -/
def isGiven (options : Options) : Bool :=
  options.settingsFile.isSome || options.pending.isSome

/-- Takes a value for the option: it may be given once, and not be empty. -/
def accept (options : Options) (value : String) : Except UsageError Options :=
  if options.settingsFile.isSome then .error .argumentConflict
  else if value.isEmpty then .error .invalidValue
  else .ok ⟨some value, .none⟩

/-- Settles the option that came last. -/
def settle (options : Options) : Except UsageError Options :=
  match options.pending with
  | .none           => .ok options
  | some .none      => .error .invalidValue
  | some (some value) => accept { options with pending := .none } value

end Options

/-- An argument by its look. -/
inductive Look where
  | escape
  | long (name : String) (value : Option String)
  | short (letters : List Char)
  | plain
  deriving DecidableEq, Repr

/-- Cuts a text at the first equals sign. -/
def cutAtEquals (cs : List Char) : String × Option String :=
  let name := cs.takeWhile (· != '=')
  let rest := cs.drop name.length
  (String.ofList name, if rest.isEmpty then none else some (String.ofList rest.tail))

/-- How an argument looks. -/
def Look.of (arg : String) : Look :=
  match arg.toList with
  | ['-', '-']     => .escape
  | '-' :: '-' :: cs =>
    let (name, value) := cutAtEquals cs
    .long name value
  | ['-']          => .plain
  | '-' :: cs      => .short cs
  | _              => .plain

/-- What arguments say from a command on. -/
structure Said where
  settingsFile : Option String
  command : Option Command
  arguments : List String
  deriving DecidableEq, Repr

/-- The command that a topic is, with the arguments for it. -/
def Topic.command? (topic : Topic) (arguments : List String) : Option Command :=
  match topic with
  | .run              => some (.run arguments)
  | .listPlugins      => some .listPlugins
  | .showSettingsFile => some .showSettingsFile
  | _                 => none

/-- The error that stops. -/
def orStop {α : Type} (result : Except UsageError α) : Except Stop α := result.mapError .wrong

/-- Ends the arguments of a command with those for the browser. -/
def conclude (topic : Topic) (options : Options) (arguments : List String) : Except Stop Said := do
  let options ← orStop options.settle
  if topic.needsCommand then
    .error (.wrong (if options.settingsFile.isSome then .missingSubcommand else .missingArgument))
  else
    match topic.command? arguments with
    | some command => .ok ⟨options.settingsFile, some command, []⟩
    | none         => .ok ⟨options.settingsFile, none, arguments⟩

/-- The topic that help is asked about, by the commands that lead to it. -/
def helpTopic : Topic → List String → Except Stop Topic
  | topic, []           => .ok topic
  | topic, name :: names =>
    match topic.commands.lookup name with
    | some inner => helpTopic inner names
    | none       =>
      if topic.hasCommands && name = Topic.helpName then helpTopic topic.aboutHelp names
      else .error (.wrong .invalidSubcommand)

/-- What a flag without a value asks for. -/
def stopFor (topic : Topic) : Flag → Stop
  | .help    => .help topic
  | .version => .version

/-- An argument that a command does not take: one that is no option may be meant for a command. -/
def rejection (topic : Topic) : UsageError :=
  if topic.hasCommands then .invalidSubcommand else .unknownArgument

/-- The arguments behind an escape are all for the browser. -/
def afterEscape (topic : Topic) (options : Options) : List String → Except Stop Said
  | []           => conclude topic options []
  | arg :: args  =>
    if topic.takesArguments then conclude topic options (arg :: args)
    else
      let isCommand := (topic.commands.lookup arg).isSome || arg = Topic.helpName
      .error (.wrong (if topic.hasCommands && isCommand then .unknownArgument else rejection topic))

/-- Takes an argument as the value that the option waits for, or as the first one for the browser. -/
def plain (topic : Topic) (options : Options) (arg : String) (args : List String)
    (goOn : Options → Except Stop Said) : Except Stop Said :=
  if options.isWaiting then goOn { options with pending := some (some arg) }
  else if topic.takesArguments then conclude topic options (arg :: args)
  else .error (.wrong (rejection topic))

/-- Reads the arguments of a command. -/
def parseFrom (topic : Topic) (options : Options) : List String → Except Stop Said
  | []          => conclude topic options []
  | arg :: args =>
    let commands :=
      if options.isWaiting || (topic.isExclusive && options.isGiven) then [] else topic.commands
    match commands.lookup arg with
    | some inner => do
      let said ← parseFrom inner .none args
      let options ← orStop options.settle
      .ok { said with settingsFile := said.settingsFile <|> options.settingsFile }
    | none       =>
      if !commands.isEmpty && arg = Topic.helpName then do
        .error (.help (← helpTopic topic args))
      else
        let take := plain topic options arg args fun options => parseFrom topic options args
        match Look.of arg with
        | .plain           => take
        | .escape          => afterEscape topic options args
        | .long name value =>
          if name = settingsOption then
            match value with
            | some v => do
              let options ← orStop options.settle
              parseFrom topic (← orStop (options.accept v)) args
            | none   => do
              parseFrom topic { ← orStop options.settle with pending := some none } args
          else
            match topic.flags.lookup name with
            | some flag =>
              if value.isSome then .error (.wrong .tooManyValues)
              else do
                let _ ← orStop options.settle
                .error (stopFor topic flag)
            | none      =>
              if topic.takesArguments then take else .error (.wrong .unknownArgument)
        | .short letters   =>
          if topic.takesArguments && letters.any fun c => (topic.letters.lookup c).isNone then take
          else
            match letters.head?.bind fun c => topic.letters.lookup c with
            | some flag => do
              let _ ← orStop options.settle
              .error (stopFor topic flag)
            | none      => .error (.wrong .unknownArgument)

/-- Reads the arguments of the program. -/
def parse (args : List String) : Except Stop Invocation := do
  let said ← parseFrom .program .none args
  .ok ⟨said.settingsFile, said.command, said.arguments⟩

end NativeMessaging.CommandLine
