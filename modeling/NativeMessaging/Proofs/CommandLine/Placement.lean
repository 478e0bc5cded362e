import Mathlib.Data.List.Basic
import NativeMessaging.CommandLine.Parser
import NativeMessaging.Proofs.Basic

/-!
# CommandLine — where the option for the settings file stands

A word is an argument that does not look like an option.

* `parseFrom_words`: where no command can be meant, words and whatever is behind them are for the
  browser.
* `parse_flag_first`: behind the option and its value no command can be meant.
* `parse_run_flag`, `parse_command_flag`: behind a command, the option is the command's.
* `names_parseFrom`: what is said from a command on names one.
* `flag_first_iff`: in front of words, the option does no more than to name the file exactly where
  they start with no command.
-/

namespace NativeMessaging.CommandLine

/-- An argument that does not look like an option. -/
def IsWord (arg : String) : Prop := arg.toList.head? ≠ some '-'

/-- The option for the settings file, as an argument. -/
def settingsFlag : String := "--config"

/-- The names of the program's commands. -/
def commandNames : List String := Topic.helpName :: (Topic.commands .program).map Prod.fst

/-- The invocation with a settings file. -/
def Invocation.withFile (file : String) (invocation : Invocation) : Invocation :=
  { invocation with settingsFile := some file }

/-! ### One argument at a time -/

theorem Look.of_word {arg : String} (h : IsWord arg) : Look.of arg = .plain := by
  rw [Look.of]
  split
  · next heq => exact absurd (by rw [heq]; rfl) h
  · next heq => exact absurd (by rw [heq]; rfl) h
  · rfl
  · next heq => exact absurd (by rw [heq]; rfl) h
  · rfl

/-- The option waits for its value. -/
theorem parseFrom_flag (topic : Topic) (args : List String) :
    parseFrom topic .none (settingsFlag :: args) = parseFrom topic ⟨none, some none⟩ args := by
  rw [parseFrom]
  cases topic <;> rfl

/-- A word is the value for which the option waits. -/
theorem parseFrom_value (topic : Topic) {file : String} (hfile : IsWord file)
    (args : List String) :
    parseFrom topic ⟨none, some none⟩ (file :: args) =
      parseFrom topic ⟨none, some (some file)⟩ args := by
  rw [parseFrom]
  dsimp only
  rw [Look.of_word hfile]
  rfl

/-- A command's name hands the arguments behind it to the command. -/
theorem parseFrom_command {topic inner : Topic} {name : String}
    (h : topic.commands.lookup name = some inner) (args : List String) :
    parseFrom topic .none (name :: args) = parseFrom inner .none args := by
  have hcommands : (if (Options.none.isWaiting || topic.isExclusive && Options.none.isGiven) = true
      then [] else topic.commands) = topic.commands :=
    if_neg (by cases topic <;> decide)
  rw [parseFrom]
  dsimp only
  rw [hcommands, h]
  dsimp only
  cases parseFrom inner .none args with
  | error stop => rfl
  | ok said =>
      obtain ⟨file, command, arguments⟩ := said
      cases file <;> rfl

/-- What names no command is not found among them, and does not ask for help. -/
theorem lookup_of_not_mem {arg : String} (h : arg ∉ commandNames) :
    (Topic.commands .program).lookup arg = none ∧ arg ≠ Topic.helpName := by
  obtain ⟨hhelp, hnames⟩ := not_or.mp (mt List.mem_cons.mpr h)
  refine ⟨List.lookup_eq_none_iff.mpr fun entry hentry => ?_, hhelp⟩
  have hne : arg ≠ entry.1 := fun heq => hnames (heq ▸ List.mem_map_of_mem hentry)
  simpa using hne

/-- **Words are for the browser** where no command can be meant: behind an option that rules
commands out, where there are no commands, and where the first word does not name one. -/
theorem parseFrom_words {topic : Topic} {options : Options} {args : List String}
    (htakes : topic.takesArguments = true) (hwaiting : options.isWaiting = false)
    (hword : ∀ arg ∈ args.head?, IsWord arg)
    (hnone : (topic.isExclusive && options.isGiven) = true ∨ topic.commands = [] ∨
      ∀ arg ∈ args.head?, arg ∉ commandNames) :
    parseFrom topic options args = conclude topic options args := by
  cases args with
  | nil => rw [parseFrom]
  | cons arg args =>
      have hlook := Look.of_word (hword arg rfl)
      rw [parseFrom]
      dsimp only
      rw [hwaiting, Bool.false_or]
      generalize hcommands :
        (if (topic.isExclusive && options.isGiven) = true then [] else topic.commands) = commands
      have hlookup : commands.lookup arg = none ∧
          (!commands.isEmpty && decide (arg = Topic.helpName)) = false := by
        rcases hnone with hgiven | hnil | hnot
        · rw [if_pos hgiven] at hcommands
          subst hcommands
          exact ⟨rfl, rfl⟩
        · rw [hnil, ite_self] at hcommands
          subst hcommands
          exact ⟨rfl, rfl⟩
        · obtain ⟨hlookup, hhelp⟩ := lookup_of_not_mem (hnot arg rfl)
          have hcases : commands = [] ∨ commands = Topic.commands .program := by
            rw [← hcommands]
            cases topic with
            | program => cases options.isGiven <;> [exact .inr rfl; exact .inl rfl]
            | run => exact .inl rfl
            | _ => cases htakes
          rcases hcases with rfl | rfl
          · exact ⟨rfl, rfl⟩
          · exact ⟨hlookup, by rw [decide_eq_false hhelp, Bool.and_false]⟩
      rw [hlookup.1]
      dsimp only
      rw [hlookup.2, hlook]
      dsimp only
      rw [if_neg Bool.false_ne_true, plain, hwaiting, if_neg Bool.false_ne_true, if_pos htakes]

/-- The option settles on its value. -/
theorem settle_file {file : String} (h : file ≠ "") :
    (Options.mk none (some (some file))).settle = .ok ⟨some file, none⟩ := by
  have hempty : file.isEmpty = false := by simpa using h
  rw [Options.settle]
  dsimp only
  rw [Options.accept, hempty]
  rfl

/-- The arguments of the program itself. -/
theorem conclude_program {options settled : Options} (h : options.settle = .ok settled)
    (args : List String) :
    conclude .program options args = .ok ⟨settled.settingsFile, none, args⟩ := by
  rw [conclude, h]
  rfl

/-- The arguments of a command. -/
theorem conclude_command {topic : Topic} {options settled : Options} {command : Command}
    (h : options.settle = .ok settled) {args : List String}
    (hcommand : topic.command? args = some command) :
    conclude topic options args = .ok ⟨settled.settingsFile, some command, []⟩ := by
  have hneeds : topic.needsCommand = false := by
    cases topic <;> first | rfl | cases hcommand
  rw [conclude, h]
  change (if topic.needsCommand = true then _ else _) = _
  rw [if_neg (by rw [hneeds]; exact Bool.false_ne_true), hcommand]

/-! ### From a command on -/

/-- What is said, where it is not refused, names a command. -/
def Names (result : Except Stop Said) : Prop := ∀ said, result = .ok said → said.command.isSome

/-- A topic that is a command, or that needs one. -/
def Topic.IsCommand (topic : Topic) : Prop :=
  topic.needsCommand = true ∨ ∀ args, (topic.command? args).isSome

theorem Topic.isCommand_of_lookup {topic inner : Topic} {name : String}
    (h : topic.commands.lookup name = some inner) : inner.IsCommand := by
  have hmem := mem_of_lookup h
  have hinner : inner = .run ∨ inner = .plugins ∨ inner = .settings ∨ inner = .listPlugins ∨
      inner = .showSettingsFile := by
    cases topic <;> simp [Topic.commands] at hmem <;> tauto
  rcases hinner with rfl | rfl | rfl | rfl | rfl
  · exact .inr fun _ => rfl
  · exact .inl rfl
  · exact .inl rfl
  · exact .inr fun _ => rfl
  · exact .inr fun _ => rfl

theorem names_error (stop : Stop) : Names (.error stop) := fun _ h => by cases h

theorem Names.orStop_bind {α : Type} {result : Except UsageError α} {next : α → Except Stop Said}
    (h : ∀ a, Names (next a)) : Names (orStop result >>= next) := by
  cases result with
  | error e => exact names_error _
  | ok a => exact h a

theorem names_conclude {topic : Topic} (h : topic.IsCommand) (options : Options)
    (args : List String) : Names (conclude topic options args) := by
  rw [conclude]
  refine .orStop_bind fun settled => ?_
  split
  · exact names_error _
  · next hneeds =>
    obtain ⟨command, hcommand⟩ := Option.isSome_iff_exists.mp (h.resolve_left hneeds args)
    rw [hcommand]
    intro said hsaid
    obtain rfl := Except.ok.inj hsaid
    rfl

theorem names_afterEscape {topic : Topic} (h : topic.IsCommand) (options : Options)
    (args : List String) : Names (afterEscape topic options args) := by
  cases args with
  | nil => exact names_conclude h options []
  | cons arg args =>
      rw [afterEscape]
      split
      · exact names_conclude h options _
      · exact names_error _

theorem names_plain {topic : Topic} (h : topic.IsCommand) (options : Options) (arg : String)
    (args : List String) {goOn : Options → Except Stop Said}
    (hgoOn : ∀ options, Names (goOn options)) :
    Names (plain topic options arg args goOn) := by
  rw [plain]
  split
  · exact hgoOn _
  · split
    · exact names_conclude h options _
    · exact names_error _

/-- **What is said from a command on names a command.** -/
theorem names_parseFrom {topic : Topic} (h : topic.IsCommand) (options : Options)
    (args : List String) : Names (parseFrom topic options args) := by
  induction args generalizing topic options with
  | nil =>
      rw [parseFrom]
      exact names_conclude h options []
  | cons arg args ih =>
      have htake := names_plain h options arg args (ih h)
      rw [parseFrom]
      dsimp only
      generalize hcommands : (if (options.isWaiting || topic.isExclusive && options.isGiven) = true
        then [] else topic.commands) = commands
      split
      · next inner hinner =>
        have hcommand : inner.IsCommand := by
          split at hcommands
          · rw [← hcommands] at hinner
            cases hinner
          · exact Topic.isCommand_of_lookup (hcommands ▸ hinner)
        have hsaid := ih hcommand .none
        cases hparse : parseFrom inner .none args with
        | error stop => exact names_error stop
        | ok said =>
            refine Names.orStop_bind fun settled => ?_
            intro said' hsaid'
            obtain rfl := Except.ok.inj hsaid'
            exact hsaid said hparse
      · split
        · cases helpTopic topic args <;> exact names_error _
        · split
          · exact htake
          · exact names_afterEscape h options args
          · split
            · split
              · exact .orStop_bind fun _ => .orStop_bind fun _ => ih h _
              · exact .orStop_bind fun _ => ih h _
            · split
              · split
                · exact names_error _
                · exact .orStop_bind fun _ => names_error _
              · split
                · exact htake
                · exact names_error _
          · split
            · exact htake
            · split
              · exact .orStop_bind fun _ => names_error _
              · exact names_error _

/-! ### Whole command lines -/

variable {file : String} {args : List String}

theorem parse_of_parseFrom {settings : Option String} {command : Option Command}
    {arguments : List String}
    (h : parseFrom .program .none args = .ok ⟨settings, command, arguments⟩) :
    parse args = .ok ⟨settings, command, arguments⟩ := by
  rw [parse, h]
  rfl

/-- Words that start with no command. -/
theorem parse_words (hword : ∀ arg ∈ args.head?, IsWord arg)
    (hnone : ∀ arg ∈ args.head?, arg ∉ commandNames) : parse args = .ok ⟨none, none, args⟩ :=
  have hsettle : Options.none.settle = .ok .none := rfl
  parse_of_parseFrom <| (parseFrom_words rfl rfl hword (.inr (.inr hnone))).trans <|
    conclude_program hsettle args

/-- **Behind the option and its value, no command can be meant.** -/
theorem parse_flag_first (hfile : IsWord file) (hne : file ≠ "")
    (hword : ∀ arg ∈ args.head?, IsWord arg) :
    parse (settingsFlag :: file :: args) = .ok ⟨some file, none, args⟩ := by
  refine parse_of_parseFrom ?_
  rw [parseFrom_flag, parseFrom_value .program hfile, parseFrom_words rfl rfl hword (.inl rfl)]
  exact conclude_program (settle_file hne) args

/-- **Behind the command that runs the host, the option is the command's.** -/
theorem parse_run_flag (hfile : IsWord file) (hne : file ≠ "")
    (hword : ∀ arg ∈ args.head?, IsWord arg) :
    parse ("run" :: settingsFlag :: file :: args) = .ok ⟨some file, some (.run args), []⟩ := by
  have hrun : (Topic.commands .program).lookup "run" = some .run := rfl
  refine parse_of_parseFrom ?_
  rw [parseFrom_command hrun, parseFrom_flag, parseFrom_value .run hfile,
    parseFrom_words rfl rfl hword (.inr (.inl rfl))]
  exact conclude_command (settle_file hne) rfl

/-- Behind the other commands, the option is the command's. -/
theorem parse_command_flag (hfile : IsWord file) (hne : file ≠ "") {group topic : Topic}
    {first second : String} {command : Command}
    (hfirst : (Topic.commands .program).lookup first = some group)
    (hsecond : group.commands.lookup second = some topic)
    (hcommand : topic.command? [] = some command) :
    parse [first, second, settingsFlag, file] = .ok ⟨some file, some command, []⟩ := by
  refine parse_of_parseFrom ?_
  rw [parseFrom_command hfirst, parseFrom_command hsecond, parseFrom_flag,
    parseFrom_value topic hfile, parseFrom]
  exact conclude_command (settle_file hne) hcommand

/-- A line that starts with a command's name says a command, where it is not refused. -/
theorem isSome_command_of_parse {name : String} (hname : name ∈ commandNames)
    {invocation : Invocation} (h : parse (name :: args) = .ok invocation) :
    invocation.command.isSome := by
  have hnames : Names (parseFrom .program .none (name :: args)) := by
    rcases List.mem_cons.mp hname with rfl | hmem
    · -- help is never granted
      rw [parseFrom]
      change Names (helpTopic .program args >>= _)
      cases helpTopic .program args <;> exact names_error _
    · obtain ⟨inner, hinner⟩ : ∃ inner, (Topic.commands .program).lookup name = some inner := by
        simp only [Topic.commands, List.map_cons, List.map_nil, List.mem_cons, List.not_mem_nil,
          or_false] at hmem
        rcases hmem with rfl | rfl | rfl <;> exact ⟨_, rfl⟩
      rw [parseFrom_command hinner]
      exact names_parseFrom (Topic.isCommand_of_lookup hinner) .none args
  rw [parse] at h
  cases hsaid : parseFrom .program .none (name :: args) with
  | error stop =>
      rw [hsaid] at h
      cases h
  | ok said =>
      rw [hsaid] at h
      obtain rfl := Except.ok.inj h
      exact hnames said hsaid

/-- **Where the option works.**  Behind a command it belongs to the command, and what follows its
value there is for the browser.  In front of everything, it makes all that follows the browser's,
if that starts with a word; so it says no more than which file is meant exactly where that word
names no command. -/
theorem flag_first_iff (hfile : IsWord file) (hne : file ≠ "")
    (hword : ∀ arg ∈ args.head?, IsWord arg) :
    parse ("run" :: settingsFlag :: file :: args) = .ok ⟨some file, some (.run args), []⟩ ∧
      parse ["plugins", "list", settingsFlag, file] = .ok ⟨some file, some .listPlugins, []⟩ ∧
      parse ["config", "path", settingsFlag, file] = .ok ⟨some file, some .showSettingsFile, []⟩ ∧
      parse (settingsFlag :: file :: args) = .ok ⟨some file, none, args⟩ ∧
      (parse (settingsFlag :: file :: args) = (parse args).map (Invocation.withFile file) ↔
        ∀ arg ∈ args.head?, arg ∉ commandNames) := by
  have hfirst := parse_flag_first hfile hne hword
  refine ⟨parse_run_flag hfile hne hword, parse_command_flag hfile hne rfl rfl rfl,
    parse_command_flag hfile hne rfl rfl rfl, hfirst, ?_⟩
  constructor
  · intro hsame name hname hcommand
    obtain ⟨rest, rfl⟩ := List.head?_eq_some_iff.mp hname
    rw [hfirst] at hsame
    cases hparse : parse (name :: rest) with
    | error stop =>
        rw [hparse] at hsame
        cases hsame
    | ok invocation =>
        rw [hparse] at hsame
        have hsome := isSome_command_of_parse hcommand hparse
        have hnone : none = invocation.command :=
          congrArg Invocation.command (Except.ok.inj hsame)
        rw [← hnone] at hsome
        cases hsome
  · intro hnone
    rw [hfirst, parse_words hword hnone]
    rfl

/-- Arguments as browsers append them: what follows the first of them is not looked at. -/
theorem flag_first_iff_origin :
    let args := ["chrome-extension://abcdef/", "--config", "run"]
    IsWord "my.toml" ∧ "my.toml" ≠ "" ∧ (∀ arg ∈ args.head?, IsWord arg) ∧
      parse ("run" :: settingsFlag :: "my.toml" :: args) =
        .ok ⟨some "my.toml", some (.run args), []⟩ ∧
      parse (settingsFlag :: "my.toml" :: args) =
        (parse args).map (Invocation.withFile "my.toml") := by
  intro args
  have hfile : IsWord "my.toml" := by
    rw [IsWord]
    decide
  have hne : "my.toml" ≠ "" := by decide
  have hword : ∀ arg ∈ args.head?, IsWord arg := by
    intro arg harg
    obtain rfl := Option.some.inj harg
    rw [IsWord]
    decide
  have hnone : ∀ arg ∈ args.head?, arg ∉ commandNames := by
    intro arg harg
    obtain rfl := Option.some.inj harg
    decide
  obtain ⟨hrun, -, -, -, hiff⟩ := flag_first_iff hfile hne hword
  exact ⟨hfile, hne, hword, hrun, hiff.mpr hnone⟩

/-- In front of a command, the option makes the command's name an argument of the browser: it stands
where the caller should, and no plugins are listed. -/
theorem not_flag_before_command :
    (∃ invocation,
      parse ["--config", "my.toml", "run", "chrome-extension://abcdef/"] = .ok invocation ∧
        invocation.browserArguments = some ["run", "chrome-extension://abcdef/"] ∧
        invocation.browserArguments ≠ some ["chrome-extension://abcdef/"]) ∧
      parse ["--config", "my.toml", "plugins", "list"] =
        .ok ⟨some "my.toml", none, ["plugins", "list"]⟩ ∧
      parse ["plugins", "list", "--config", "my.toml"] =
        .ok ⟨some "my.toml", some .listPlugins, []⟩ :=
  ⟨⟨_, rfl, rfl, by decide⟩, rfl, rfl⟩

end NativeMessaging.CommandLine
