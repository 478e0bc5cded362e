import NativeMessaging.CommandLine.Execution
import NativeMessaging.Proofs.CommandLine.Placement

/-!
# CommandLine — what a browser appends is not looked at

Whatever stands behind the first of the browser's arguments is handed on as it is, be it an option,
a command's name or an escape.

* `parse_run_words`: behind the command that runs the host, words and whatever is behind them are
  for the browser.
* `parseFrom_waiting`: there the option takes every argument for its value that the command does
  not read itself (`IsOwn`).
* `taken_verbatim`: the host is run for the same arguments (`Invocation.Serves`) with the command
  and without it, and the option adds the settings file and nothing else.
-/

namespace NativeMessaging.CommandLine

variable {file : String} {args : List String}

/-- The invocation runs the host for what a browser appended. -/
structure Invocation.Serves (invocation : Invocation) (args : List String) : Prop where
  arguments : invocation.browserArguments = some args
  origin : invocation.origin = args.head?
  doing : ∀ tree dirs settings,
    invocation.doing tree dirs settings = .serves (.start settings tree)

/-- An argument that the command which runs the host reads itself: the escape, an option that it
has, or letters all of which are flags. -/
def IsOwn (arg : String) : Prop :=
  match Look.of arg with
  | .plain         => False
  | .escape        => True
  | .long name _   => name = settingsOption ∨ (Topic.flags .run).lookup name ≠ none
  | .short letters => ∀ c ∈ letters, (Topic.letters .run).lookup c ≠ none

/-! ### Running the host -/

theorem serves_bare (settingsFile : Option String) (args : List String) :
    Invocation.Serves ⟨settingsFile, none, args⟩ args :=
  ⟨rfl, rfl, fun _ _ _ => rfl⟩

theorem serves_run (settingsFile : Option String) (args : List String) :
    Invocation.Serves ⟨settingsFile, some (.run args), []⟩ args :=
  ⟨rfl, rfl, fun _ _ _ => rfl⟩

/-- **Behind the command that runs the host**, no further command can be meant. -/
theorem parse_run_words (hword : ∀ arg ∈ args.head?, IsWord arg) :
    parse ("run" :: args) = .ok ⟨none, some (.run args), []⟩ := by
  have hrun : (Topic.commands .program).lookup "run" = some .run := rfl
  have hsettle : Options.none.settle = .ok .none := rfl
  refine parse_of_parseFrom ?_
  rw [parseFrom_command hrun, parseFrom_words rfl rfl hword (.inr (.inl rfl))]
  exact conclude_command hsettle rfl

/-! ### The value of the option -/

/-- **The option waits for a value**: the next argument is it, unless the command reads that
itself, and then the option has none. -/
theorem parseFrom_waiting (file : String) (args : List String) :
    (¬ IsOwn file → parseFrom .run ⟨none, some none⟩ (file :: args) =
        parseFrom .run ⟨none, some (some file)⟩ args) ∧
      (IsOwn file → ∃ stop, parseFrom .run ⟨none, some none⟩ (file :: args) = .error stop) := by
  have hwaiting : Options.isWaiting ⟨none, some none⟩ = true := rfl
  -- no command can be meant where a value has to come
  simp only [parseFrom, hwaiting, Bool.true_or, if_true, List.lookup_nil, List.isEmpty_nil,
    Bool.not_true, Bool.false_and, Bool.false_eq_true, if_false]
  rw [IsOwn]
  cases Look.of file with
  | plain => exact ⟨fun _ => rfl, False.elim⟩
  | escape =>
      refine ⟨fun h => absurd trivial h, fun _ => ?_⟩
      cases args <;> exact ⟨_, rfl⟩
  | long name value =>
      dsimp only
      by_cases hname : name = settingsOption
      · refine ⟨fun h => absurd (.inl hname) h, fun _ => ?_⟩
        rw [if_pos hname]
        cases value <;> exact ⟨_, rfl⟩
      · rw [if_neg hname]
        cases (Topic.flags .run).lookup name with
        | none => exact ⟨fun _ => rfl, fun h => absurd rfl (h.resolve_left hname)⟩
        | some flag =>
            refine ⟨fun h => absurd (.inr (Option.some_ne_none flag)) h, fun _ => ?_⟩
            cases value <;> exact ⟨_, rfl⟩
  | short letters =>
      dsimp only
      cases hany : letters.any fun c => ((Topic.letters .run).lookup c).isNone with
      | true =>
          obtain ⟨c, hc, hnone⟩ := List.any_eq_true.mp hany
          exact ⟨fun _ => rfl, fun h => absurd (Option.isNone_iff_eq_none.mp hnone) (h c hc)⟩
      | false =>
          refine ⟨fun h => absurd (fun c hc heq => ?_) h, fun _ => ?_⟩
          · exact List.any_eq_false.mp hany c hc (Option.isNone_iff_eq_none.mpr heq)
          · rw [Bool.and_false, if_neg Bool.false_ne_true]
            cases letters.head?.bind fun c => (Topic.letters .run).lookup c <;> exact ⟨_, rfl⟩

/-- **Which files can be given** behind the command: every text but the empty one and those that the
command reads itself. -/
theorem parse_run_flag_iff (hword : ∀ arg ∈ args.head?, IsWord arg) :
    parse ("run" :: settingsFlag :: file :: args) = .ok ⟨some file, some (.run args), []⟩ ↔
      file ≠ "" ∧ ¬ IsOwn file := by
  have hrun : (Topic.commands .program).lookup "run" = some .run := rfl
  have hfrom : parseFrom .program .none ("run" :: settingsFlag :: file :: args) =
      parseFrom .run ⟨none, some none⟩ (file :: args) := by
    rw [parseFrom_command hrun, parseFrom_flag]
  obtain ⟨htake, hown⟩ := parseFrom_waiting file args
  by_cases h : IsOwn file
  · obtain ⟨stop, hstop⟩ := hown h
    rw [parse, hfrom, hstop]
    exact ⟨fun heq => (by cases heq), fun hnot => absurd h hnot.2⟩
  · have hconclude : parseFrom .run ⟨none, some (some file)⟩ args =
        conclude .run ⟨none, some (some file)⟩ args :=
      parseFrom_words rfl rfl hword (.inr (.inl rfl))
    rw [← htake h, ← hfrom] at hconclude
    by_cases hne : file = ""
    · subst hne
      rw [parse, hconclude]
      exact ⟨fun heq => (by cases heq), fun hnot => absurd rfl hnot.1⟩
    · refine ⟨fun _ => ⟨hne, h⟩, fun _ => parse_of_parseFrom ?_⟩
      rw [hconclude]
      exact conclude_command (settle_file hne) rfl

/-- **What a browser appends is taken as it is.**  If the first argument is a word that names no
command, or if there is none, then the arguments alone and the arguments behind the command both run
the host, without a settings file, for these arguments in their order, and the first one is the
caller.  With the option between the command and the arguments, the settings file is added and
nothing else changes; it may be any text but the empty one and those that the command reads
itself. -/
theorem taken_verbatim (hword : ∀ arg ∈ args.head?, IsWord arg)
    (hnone : ∀ arg ∈ args.head?, arg ∉ commandNames) :
    ∃ bare run, parse args = .ok bare ∧ parse ("run" :: args) = .ok run ∧
      (bare.Serves args ∧ bare.settingsFile = none) ∧ (run.Serves args ∧ run.settingsFile = none) ∧
      ∀ file, (run.withFile file).Serves args ∧
        (parse ("run" :: settingsFlag :: file :: args) = .ok (run.withFile file) ↔
          file ≠ "" ∧ ¬ IsOwn file) :=
  ⟨_, _, parse_words hword hnone, parse_run_words hword, ⟨serves_bare none args, rfl⟩,
    ⟨serves_run none args, rfl⟩,
    fun file => ⟨serves_run (some file) args, parse_run_flag_iff hword⟩⟩

/-- A browser may append what looks like the program's own options and commands, and a settings file
may look like an option that there is not. -/
theorem taken_verbatim_options :
    let args := ["chrome-extension://abcdef/", "--config", "--help", "--", "run", "", "-V", "help"]
    ((∀ arg ∈ args.head?, IsWord arg) ∧ ∀ arg ∈ args.head?, arg ∉ commandNames) ∧
      ∃ bare run, parse args = .ok bare ∧ parse ("run" :: args) = .ok run ∧
        (bare.Serves args ∧ bare.settingsFile = none) ∧
        (run.Serves args ∧ run.settingsFile = none) ∧
        parse ("run" :: settingsFlag :: "--my.toml" :: args) = .ok (run.withFile "--my.toml") := by
  intro args
  have hword : ∀ arg ∈ args.head?, IsWord arg := by
    intro arg harg
    obtain rfl := Option.some.inj harg
    rw [IsWord]
    decide
  have hnone : ∀ arg ∈ args.head?, arg ∉ commandNames := by
    intro arg harg
    obtain rfl := Option.some.inj harg
    decide
  have hfile : ¬ IsOwn "--my.toml" := by
    have hlook : Look.of "--my.toml" = .long "my.toml" none := by decide
    rw [IsOwn, hlook]
    decide
  obtain ⟨bare, run, hbare, hrun, hserves, hserves', hflag⟩ := taken_verbatim hword hnone
  exact ⟨⟨hword, hnone⟩, bare, run, hbare, hrun, hserves, hserves',
    (hflag "--my.toml").2.mpr ⟨by decide, hfile⟩⟩

end NativeMessaging.CommandLine
