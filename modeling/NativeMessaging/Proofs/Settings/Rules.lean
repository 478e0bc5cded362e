import NativeMessaging.Proofs.Plugin.Registry
import NativeMessaging.Proofs.Settings.Document
import NativeMessaging.Proofs.Text.Utf8

/-!
# Settings — Rules: what settings that are loaded keep to

A host relies on its settings without looking at them again, so only valid ones are loaded
(`Valid`).  Of invalid ones the first rule counts that they break (`FirstBroken`).  The rules stand
in an order of their own (`Rule.Before`): the version, the size of chunks, the size of frames, and
then plugin by plugin in the order of the bytes of the mimetypes; so the order in which a document
has its plugins does not matter, nor how many rules are broken.

* `check_eq_ok_iff`: the check passes valid settings and no others.
* `exists_firstBroken`: where the plugins are in order, it fails with the first rule that is broken.
* `ascending_of_ofValue`: settings that are read have their plugins in order.
* `load_keeps_rules`: files of settings.
-/

namespace NativeMessaging.Settings

open Files (Path Tree)
open Plugin.Registry (Ascending ascending_ofList)
open Shape (Content Mismatch)
open Shape.Field (ofMembers_eq_ok_iff)
open Text (Utf8.encode)
open Toml (Value)

/-! ### Rules and their order -/

/-- A rule for settings: three are about the whole, and two about the plugin of a mimetype. -/
inductive Rule where
  | version
  | chunkSize
  | frameLimit
  | mimetype (mimetype : String)
  | executable (mimetype : String)

namespace Rule

/-- The mimetype whose plugin the rule is about. -/
def plugin? : Rule → Option String
  | .version | .chunkSize | .frameLimit  => none
  | .mimetype m | .executable m          => some m

/-- The place of a rule, where those for plugins share the last one. -/
def stage : Rule → Nat
  | .version                     => 0
  | .chunkSize                   => 1
  | .frameLimit                  => 2
  | .mimetype _ | .executable _  => 3

/-- The order of the rules. -/
inductive Before : Rule → Rule → Prop where
  /-- The version comes first, then the size of chunks, the size of frames, and the plugins. -/
  | stage {rule later : Rule} (h : rule.stage < later.stage) : Before rule later
  /-- Plugins come in ascending order of the bytes of their mimetypes. -/
  | plugin {rule later : Rule} {m m' : String} (hrule : rule.plugin? = some m)
      (hlater : later.plugin? = some m') (h : Utf8.encode m < Utf8.encode m') : Before rule later
  /-- The mimetype of a plugin comes before its program. -/
  | entry (m : String) : Before (.mimetype m) (.executable m)

theorem stage_of_plugin? {rule : Rule} {m : String} (h : rule.plugin? = some m) :
    rule.stage = 3 := by
  cases rule with
  | version | chunkSize | frameLimit => cases h
  | mimetype | executable            => rfl

/-- No rule comes before one that comes before it. -/
theorem Before.asymm {rule later : Rule} (h : rule.Before later) : ¬ later.Before rule := by
  intro h'
  cases h with
  | stage h =>
      cases h' with
      | stage h'                => omega
      | plugin hlater hrule _   =>
          rw [stage_of_plugin? hlater, stage_of_plugin? hrule] at h
          omega
      | entry m                 => exact absurd h (Nat.lt_irrefl 3)
  | @plugin rule later m m' hrule hlater h =>
      cases h' with
      | stage h'                =>
          rw [stage_of_plugin? hlater, stage_of_plugin? hrule] at h'
          omega
      | plugin hlater' hrule' h' =>
          obtain rfl := Option.some.inj (hlater.symm.trans hlater')
          obtain rfl := Option.some.inj (hrule.symm.trans hrule')
          exact List.lt_asymm h h'
      | entry n                 =>
          obtain rfl := Option.some.inj hrule
          obtain rfl := Option.some.inj hlater
          exact List.lt_irrefl _ h
  | entry m =>
      cases h' with
      | stage h'                 => exact absurd h' (Nat.lt_irrefl 3)
      | plugin hlater hrule h'   =>
          obtain rfl := Option.some.inj hlater
          obtain rfl := Option.some.inj hrule
          exact List.lt_irrefl _ h'

end Rule

variable {settings : Settings} {rule : Rule} {reason : Violation}

/-- A plugin that can be asked for and started: its mimetype is not all white space, and it has a
program. -/
def IsUsable (mimetype : String) (entry : PluginEntry) : Prop :=
  ¬ Text.isAllBlank mimetype ∧ entry.executable ≠ ""

/-- Settings that a host can rely on. -/
structure Valid (settings : Settings) : Prop where
  version : settings.version = 1
  chunkSize : 1 ≤ settings.limits.maxChunkSize ∧ settings.limits.maxChunkSize ≤ 786432
  frameLimit : 1 ≤ settings.limits.maxFrameBytes
  plugins : ∀ plugin ∈ settings.plugins, IsUsable plugin.1 plugin.2

/-- Settings that break a rule. -/
def Breaks (settings : Settings) : Rule → Prop
  | .version       => settings.version ≠ 1
  | .chunkSize     => settings.limits.maxChunkSize < 1 ∨ 786432 < settings.limits.maxChunkSize
  | .frameLimit    => settings.limits.maxFrameBytes < 1
  | .mimetype m    => ∃ plugin ∈ settings.plugins, plugin.1 = m ∧ Text.isAllBlank m
  | .executable m  => ∃ plugin ∈ settings.plugins, plugin.1 = m ∧ plugin.2.executable = ""

instance (settings : Settings) : DecidablePred settings.Breaks
  | .version       => inferInstanceAs (Decidable (settings.version ≠ 1))
  | .chunkSize     => inferInstanceAs <| Decidable <|
      settings.limits.maxChunkSize < 1 ∨ 786432 < settings.limits.maxChunkSize
  | .frameLimit    => inferInstanceAs (Decidable (settings.limits.maxFrameBytes < 1))
  | .mimetype m    => inferInstanceAs <| Decidable <|
      ∃ plugin ∈ settings.plugins, plugin.1 = m ∧ Text.isAllBlank m
  | .executable m  => inferInstanceAs <| Decidable <|
      ∃ plugin ∈ settings.plugins, plugin.1 = m ∧ plugin.2.executable = ""

/-- What is said of settings that break a rule, with the value or the mimetype that breaks it. -/
def Rule.violation (settings : Settings) : Rule → Violation
  | .version       => .unsupportedVersion settings.version
  | .chunkSize     => .chunkSizeOutOfRange settings.limits.maxChunkSize
  | .frameLimit    => .frameLimitZero
  | .mimetype _    => .emptyMimetype
  | .executable m  => .missingExecutable m

/-- The first rule that settings break. -/
structure FirstBroken (settings : Settings) (rule : Rule) : Prop where
  broken : settings.Breaks rule
  first : ∀ other, settings.Breaks other → other ≠ rule → rule.Before other

theorem FirstBroken.unique {rule' : Rule} (h : settings.FirstBroken rule)
    (h' : settings.FirstBroken rule') : rule = rule' := by
  by_contra hne
  exact (h.first rule' h'.broken (Ne.symm hne)).asymm (h'.first rule h.broken hne)

/-! ### The check of a plugin -/

variable {mimetype : String} {entry : PluginEntry} {plugins : List (String × PluginEntry)}

theorem checkPlugin_eq_ok_iff : checkPlugin mimetype entry = .ok () ↔ IsUsable mimetype entry := by
  rw [IsUsable, Ne, ← String.isEmpty_iff, checkPlugin]
  split
  · next hblank => exact ⟨fun h => (by cases h), fun h => absurd hblank h.1⟩
  · next hblank =>
    split
    · next hempty => exact ⟨fun h => (by cases h), fun h => absurd hempty h.2⟩
    · next hempty => exact ⟨fun _ => ⟨hblank, hempty⟩, fun _ => rfl⟩

/-- What is wrong with a plugin is its mimetype, or else its program. -/
theorem of_checkPlugin_eq_error (h : checkPlugin mimetype entry = .error reason) :
    Text.isAllBlank mimetype ∧ reason = .emptyMimetype ∨
      ¬ Text.isAllBlank mimetype ∧ entry.executable = "" ∧
        reason = .missingExecutable mimetype := by
  rw [← String.isEmpty_iff]
  rw [checkPlugin] at h
  split at h
  · next hblank => exact .inl ⟨hblank, (Except.error.inj h).symm⟩
  · next hblank =>
    split at h
    · next hempty => exact .inr ⟨hblank, hempty, (Except.error.inj h).symm⟩
    · cases h

theorem checkPlugins_eq_ok_iff :
    checkPlugins plugins = .ok () ↔ ∀ plugin ∈ plugins, IsUsable plugin.1 plugin.2 := by
  induction plugins with
  | nil                  => exact ⟨fun _ => List.forall_mem_nil _, fun _ => rfl⟩
  | cons first plugins ih =>
      rw [checkPlugins, bind_eq_ok_iff, List.forall_mem_cons, ← ih, ← checkPlugin_eq_ok_iff]
      constructor
      · rintro ⟨⟨⟩, hfirst, hrest⟩
        exact ⟨hfirst, hrest⟩
      · rintro ⟨hfirst, hrest⟩
        exact ⟨(), hfirst, hrest⟩

/-- **Of plugins in order**, the check fails for the first one with which something is wrong. -/
theorem exists_first_unusable (h : Ascending plugins)
    (hcheck : checkPlugins plugins = .error reason) :
    ∃ first ∈ plugins, checkPlugin first.1 first.2 = .error reason ∧
      ∀ plugin ∈ plugins, ¬ IsUsable plugin.1 plugin.2 → plugin = first ∨ first.1 < plugin.1 := by
  induction plugins with
  | nil => cases hcheck
  | cons head plugins ih =>
      obtain ⟨hhead, htail⟩ := List.pairwise_cons.mp h
      rw [checkPlugins] at hcheck
      rcases bind_eq_error_iff.mp hcheck with hcheck | ⟨⟨⟩, husable, hcheck⟩
      · refine ⟨head, List.mem_cons_self .., hcheck, fun plugin hplugin _ => ?_⟩
        exact (List.mem_cons.mp hplugin).imp_right (hhead plugin)
      · obtain ⟨first, hfirst, hcheck, hall⟩ := ih htail hcheck
        refine ⟨first, List.mem_cons_of_mem _ hfirst, hcheck, fun plugin hplugin hunusable => ?_⟩
        rcases List.mem_cons.mp hplugin with rfl | hplugin
        · exact absurd (checkPlugin_eq_ok_iff.mp husable) hunusable
        · exact hall plugin hplugin hunusable

/-! ### The check of the whole -/

/-- **The check** looks at the rules about the whole first, one behind the other, and at the plugins
where none of these is broken. -/
theorem check_inv (settings : Settings) :
    (∃ rule, settings.Breaks rule ∧ settings.check = .error (rule.violation settings) ∧
      ∀ other, settings.Breaks other → other ≠ rule → rule.stage < other.stage) ∨
    (∀ rule : Rule, rule.plugin? = none → ¬ settings.Breaks rule) ∧
      settings.check = checkPlugins settings.plugins := by
  rw [check]
  split
  · next hversion =>
    refine .inl ⟨.version, hversion, rfl, fun other _ hne => ?_⟩
    cases other with
    | version                                          => exact absurd rfl hne
    | chunkSize | frameLimit | mimetype | executable   => simp [Rule.stage]
  · next hversion =>
    split
    · next hchunk =>
      refine .inl ⟨.chunkSize, hchunk.imp_left Nat.lt_one_iff.mpr, rfl, fun other hother hne => ?_⟩
      cases other with
      | version                              => exact absurd hother hversion
      | chunkSize                            => exact absurd rfl hne
      | frameLimit | mimetype | executable   => simp [Rule.stage]
    · next hchunk =>
      have hchunk' : ¬ settings.Breaks .chunkSize := mt (Or.imp_left Nat.lt_one_iff.mp) hchunk
      split
      · next hframe =>
        refine .inl ⟨.frameLimit, Nat.lt_one_iff.mpr hframe, rfl, fun other hother hne => ?_⟩
        cases other with
        | version                 => exact absurd hother hversion
        | chunkSize               => exact absurd hother hchunk'
        | frameLimit              => exact absurd rfl hne
        | mimetype | executable   => simp [Rule.stage]
      · next hframe =>
        refine .inr ⟨fun rule hrule => ?_, rfl⟩
        cases rule with
        | version                 => exact hversion
        | chunkSize               => exact hchunk'
        | frameLimit              => exact mt Nat.lt_one_iff.mp hframe
        | mimetype | executable   => cases hrule

theorem valid_iff :
    settings.Valid ↔ (∀ rule : Rule, rule.plugin? = none → ¬ settings.Breaks rule) ∧
      ∀ plugin ∈ settings.plugins, IsUsable plugin.1 plugin.2 := by
  constructor
  · intro h
    refine ⟨fun rule hrule => ?_, h.plugins⟩
    cases rule with
    | version                 => exact not_not.mpr h.version
    | chunkSize               =>
        exact not_or.mpr ⟨Nat.not_lt.mpr h.chunkSize.1, Nat.not_lt.mpr h.chunkSize.2⟩
    | frameLimit              => exact Nat.not_lt.mpr h.frameLimit
    | mimetype | executable   => cases hrule
  · rintro ⟨hwhole, hplugins⟩
    obtain ⟨hleast, hmost⟩ := not_or.mp (hwhole .chunkSize rfl)
    exact {
      version := not_not.mp (hwhole .version rfl)
      chunkSize := ⟨Nat.not_lt.mp hleast, Nat.not_lt.mp hmost⟩
      frameLimit := Nat.not_lt.mp (hwhole .frameLimit rfl)
      plugins := hplugins }

/-- A broken rule about a plugin is broken by one that cannot be used. -/
theorem exists_unusable (hbroken : settings.Breaks rule) (hrule : rule.plugin? = some mimetype) :
    ∃ plugin ∈ settings.plugins, plugin.1 = mimetype ∧ ¬ IsUsable plugin.1 plugin.2 := by
  cases rule with
  | version | chunkSize | frameLimit => cases hrule
  | mimetype m =>
      obtain rfl := Option.some.inj hrule
      obtain ⟨plugin, hplugin, rfl, hblank⟩ := hbroken
      exact ⟨plugin, hplugin, rfl, fun husable => husable.1 hblank⟩
  | executable m =>
      obtain rfl := Option.some.inj hrule
      obtain ⟨plugin, hplugin, rfl, hempty⟩ := hbroken
      exact ⟨plugin, hplugin, rfl, fun husable => husable.2 hempty⟩

/-- **The check** passes valid settings and no others. -/
theorem check_eq_ok_iff : settings.check = .ok () ↔ settings.Valid := by
  rcases settings.check_inv with ⟨rule, hbroken, hcheck, -⟩ | ⟨hwhole, hcheck⟩
  · rw [hcheck]
    refine ⟨fun h => (by cases h), fun hvalid => ?_⟩
    obtain ⟨hwhole, hplugins⟩ := valid_iff.mp hvalid
    cases hrule : rule.plugin? with
    | none   => exact absurd hbroken (hwhole rule hrule)
    | some m =>
        obtain ⟨plugin, hplugin, -, hunusable⟩ := exists_unusable hbroken hrule
        exact absurd (hplugins plugin hplugin) hunusable
  · rw [hcheck, checkPlugins_eq_ok_iff, valid_iff, and_iff_right hwhole]

/-- A broken rule about a plugin is the first one where none about the whole is broken, no plugin in
front of this one is unusable, and the other rules about this one come behind it. -/
theorem firstBroken_of_plugin (hbroken : settings.Breaks rule)
    (hrule : rule.plugin? = some mimetype)
    (hwhole : ∀ other : Rule, other.plugin? = none → ¬ settings.Breaks other)
    (hplugins : ∀ plugin ∈ settings.plugins, ¬ IsUsable plugin.1 plugin.2 →
      plugin.1 = mimetype ∨ mimetype < plugin.1)
    (hsame : ∀ other, settings.Breaks other → other.plugin? = some mimetype → other ≠ rule →
      rule.Before other) :
    settings.FirstBroken rule := by
  refine ⟨hbroken, fun other hother hne => ?_⟩
  cases hm : other.plugin? with
  | none   => exact absurd hother (hwhole other hm)
  | some m =>
      obtain ⟨plugin, hplugin, rfl, hunusable⟩ := exists_unusable hother hm
      rcases hplugins plugin hplugin hunusable with heq | hlt
      · exact hsame other hother (heq ▸ hm) hne
      · exact .plugin hrule hm (Text.Utf8.encode_lt_encode_iff.mpr hlt)

/-- **The first rule that is broken** is the one with which the check fails, where the plugins are
in order. -/
theorem exists_firstBroken (h : Ascending settings.plugins)
    (hcheck : settings.check = .error reason) :
    ∃ rule, settings.FirstBroken rule ∧ rule.violation settings = reason := by
  rcases settings.check_inv with ⟨rule, hbroken, heq, hfirst⟩ | ⟨hwhole, heq⟩
  · exact ⟨rule, ⟨hbroken, fun other hother hne => .stage (hfirst other hother hne)⟩,
      Except.error.inj (heq.symm.trans hcheck)⟩
  · obtain ⟨first, hfirst, hplugin, hall⟩ := exists_first_unusable h (heq.symm.trans hcheck)
    have hplugins (plugin) (hplugin : plugin ∈ settings.plugins)
        (hunusable : ¬ IsUsable plugin.1 plugin.2) : plugin.1 = first.1 ∨ first.1 < plugin.1 :=
      (hall plugin hplugin hunusable).imp_left (congrArg Prod.fst)
    rcases of_checkPlugin_eq_error hplugin with ⟨hblank, rfl⟩ | ⟨hvisible, hempty, rfl⟩
    · have hbroken : settings.Breaks (.mimetype first.1) := ⟨first, hfirst, rfl, hblank⟩
      refine ⟨_, firstBroken_of_plugin hbroken rfl hwhole hplugins fun other _ hm hne => ?_, rfl⟩
      cases other with
      | version | chunkSize | frameLimit => cases hm
      | mimetype m                       => exact absurd (congrArg _ (Option.some.inj hm)) hne
      | executable m                     => exact Option.some.inj hm ▸ .entry m
    · have hbroken : settings.Breaks (.executable first.1) := ⟨first, hfirst, rfl, hempty⟩
      refine ⟨_, firstBroken_of_plugin hbroken rfl hwhole hplugins
        fun other hother hm hne => ?_, rfl⟩
      cases other with
      | version | chunkSize | frameLimit => cases hm
      | mimetype m                       =>
          -- the mimetype was looked at before the program
          obtain ⟨-, -, -, hblank⟩ := hother
          exact absurd (Option.some.inj hm ▸ hblank) hvisible
      | executable m                     => exact absurd (congrArg _ (Option.some.inj hm)) hne

/-! ### The order of the plugins -/

theorem ascending_of_read {v : Value} (h : pluginsField.read v = .ok plugins) :
    Ascending plugins := by
  obtain ⟨entries, -, rfl⟩ := map_eq_ok_iff.mp h
  exact ascending_ofList entries

theorem ascending_of_fieldOf {label : String} {place : Nat} {content : Content Value}
    (h : fieldOf pluginsField label place content = .ok plugins) : Ascending plugins := by
  cases content with
  | members members =>
      rcases ofMembers_eq_ok_iff.mp h with ⟨v, -, hread⟩ | ⟨-, habsent⟩
      · exact ascending_of_read hread
      · obtain rfl := Option.some.inj habsent
        exact .nil
  | items items =>
      rw [fieldOf, Shape.Field.ofItems] at h
      split at h
      · exact ascending_of_read h
      · next habsent =>
        obtain rfl := Option.some.inj habsent
        obtain rfl := Except.ok.inj h
        exact .nil
      · cases h

/-- **Settings that are read** have their plugins in ascending order of the mimetypes. -/
theorem ascending_of_ofValue {v : Value} (h : ofValue v = .ok settings) :
    Ascending settings.plugins := by
  obtain ⟨content, -, h⟩ := bind_eq_ok_iff.mp h
  obtain ⟨-, -, h⟩ := bind_eq_ok_iff.mp h
  obtain ⟨version, -, h⟩ := bind_eq_ok_iff.mp h
  obtain ⟨logging, -, h⟩ := bind_eq_ok_iff.mp h
  obtain ⟨limits, -, h⟩ := bind_eq_ok_iff.mp h
  obtain ⟨plugins, hplugins, h⟩ := bind_eq_ok_iff.mp h
  obtain rfl := Except.ok.inj h
  exact ascending_of_fieldOf hplugins

/-! ### Files -/

variable {tree ready : Tree} {path : Path} {text : String} {dirs : Directories} {v : Value}

theorem valid_of_load (h : load tree path = .ok settings) : settings.Valid := by
  obtain ⟨text, htext, -⟩ := bind_eq_ok_iff.mp h
  obtain ⟨v, -, -, hcheck⟩ := (load_eq_ok_iff (mapError_eq_ok_iff.mp htext)).mp h
  exact check_eq_ok_iff.mp hcheck

theorem valid_default : default.Valid where
  version := rfl
  chunkSize := by decide
  frameLimit := by decide
  plugins := List.forall_mem_nil _

theorem valid_of_loadOrDefault (h : loadOrDefault tree dirs = (.ok settings, ready)) :
    settings.Valid := by
  rw [loadOrDefault] at h
  split at h
  · cases h
  · split at h
    · exact valid_of_load (Prod.mk.inj h).1
    · obtain rfl := Except.ok.inj (Prod.mk.inj h).1
      exact valid_default

/-- A host loads the settings that it finds where they are. -/
theorem loadOrDefault_eq_load (hensure : dirs.ensure tree = (.ok (), ready))
    (htext : ready.readText dirs.settingsFile = .ok text) :
    loadOrDefault tree dirs = (load ready dirs.settingsFile, ready) := by
  have hexists : ready.exists? dirs.settingsFile = true := by
    rw [Tree.exists?]
    rw [Tree.readText] at htext
    cases hfind : ready.find dirs.settingsFile with
    | error e   => rw [hfind] at htext; cases htext
    | ok node   => rfl
  simp only [loadOrDefault, hensure, hexists, if_true]

/-- Settings that are read of a file are not loaded where the check fails. -/
theorem load_eq_error (htext : tree.readText path = .ok text) (hparse : Toml.parse text = some v)
    (hread : ofValue v = .ok settings) (hcheck : settings.check = .error reason) :
    load tree path = .error (.invalid reason) := by
  rw [load_eq_ofText htext, ofText, hparse]
  have hinvalid : settings.check.mapError LoadError.invalid = .error (.invalid reason) := by
    rw [hcheck]
    rfl
  exact bind_eq_error_iff.mpr
    (.inr ⟨settings, mapError_eq_ok_iff.mpr hread, bind_eq_error_iff.mpr (.inl hinvalid)⟩)

/-- **Only valid settings are loaded**, whatever is in the file; and where settings can be read from
it that break rules, the first of these is named, with the value or the mimetype that breaks it. -/
theorem load_keeps_rules :
    (∀ {tree : Tree} {path : Path} {settings : Settings},
      load tree path = .ok settings → settings.Valid) ∧
    (∀ {tree ready : Tree} {dirs : Directories} {settings : Settings},
      loadOrDefault tree dirs = (.ok settings, ready) → settings.Valid) ∧
    ∀ {tree : Tree} {path : Path} {text : String} {v : Value} {settings : Settings},
      tree.readText path = .ok text → Toml.parse text = some v → ofValue v = .ok settings →
        (settings.Valid → load tree path = .ok settings) ∧
        (¬ settings.Valid → ∃ rule, settings.FirstBroken rule ∧
          load tree path = .error (.invalid (rule.violation settings))) ∧
        ∀ {start : Tree} {dirs : Directories}, dirs.ensure start = (.ok (), tree) →
          dirs.settingsFile = path → loadOrDefault start dirs = (load tree path, tree) := by
  refine ⟨valid_of_load, valid_of_loadOrDefault, fun htext hparse hread => ⟨?_, ?_, ?_⟩⟩
  · intro hvalid
    exact (load_eq_ok_iff htext).mpr ⟨_, hparse, hread, check_eq_ok_iff.mpr hvalid⟩
  · intro hinvalid
    cases hcheck : check _ with
    | ok _         => exact absurd (check_eq_ok_iff.mp hcheck) hinvalid
    | error reason =>
        obtain ⟨rule, hfirst, rfl⟩ := exists_firstBroken (ascending_of_ofValue hread) hcheck
        exact ⟨rule, hfirst, load_eq_error htext hparse hread hcheck⟩
  · rintro start dirs hensure rfl
    exact loadOrDefault_eq_load hensure htext

/-- All files of a host that has a file of settings. -/
def homeWith (text : String) : Tree :=
  ⟨[("host", .directory [
      ("config", .directory [("config.toml", .file (Text.Utf8.encode text) false 0)] 0),
      ("data", .directory [("logs", .directory [] 0)] 0)] 0)], [], 0⟩

/-- The directories of that host. -/
def home : Directories := .below ⟨"/host"⟩

theorem readText_homeWith (text : String) :
    (homeWith text).readText home.settingsFile = .ok text := by
  have hfind : (homeWith text).find home.settingsFile =
      .ok (.file (Text.Utf8.encode text) false 0) := rfl
  rw [Tree.readText, hfind]
  dsimp only
  rw [Text.Utf8.decode_encode]

/-- Three plugins: the first one has a blank mimetype, and the second one has no program. -/
def faulty : String :=
  "[plugins.\"\u3000\"]\nexecutable = \"sed\"\n[plugins.\"é\"]\nexecutable = \"\"\n" ++
  "[plugins.z]\nexecutable = \"cat\"\n"

/-- The settings that this document spells. -/
def faultySettings : Settings :=
  ⟨1, .default, .default,
    [("z", ⟨"cat", [], none, []⟩), ("é", ⟨"", [], none, []⟩), ("\u3000", ⟨"sed", [], none, []⟩)]⟩

/-- The plugin without a program comes first, since its mimetype has the smaller bytes. -/
theorem firstBroken_faulty : faultySettings.FirstBroken (.executable "é") where
  broken := by decide
  first other hother hne := by
    cases other with
    | version      => exact absurd hother (by decide)
    | chunkSize    => exact absurd hother (by decide)
    | frameLimit   => exact absurd hother (by decide)
    | mimetype m   =>
        obtain ⟨plugin, hplugin, rfl, hblank⟩ := hother
        have hlast : ∀ plugin ∈ faultySettings.plugins,
            Text.isAllBlank plugin.1 → plugin.1 = "\u3000" := by decide
        have hlt : "é" < "\u3000" := by decide
        rw [← hlast plugin hplugin hblank] at hlt
        exact .plugin rfl rfl (Text.Utf8.encode_lt_encode_iff.mpr hlt)
    | executable m =>
        obtain ⟨plugin, hplugin, rfl, hempty⟩ := hother
        have honly : ∀ plugin ∈ faultySettings.plugins,
            plugin.2.executable = "" → plugin.1 = "é" := by decide
        exact absurd (congrArg Rule.executable (honly plugin hplugin hempty)) hne

set_option maxRecDepth 4000 in
/-- An empty file gives valid settings, and so does none; the faulty one is refused for its second
plugin. -/
theorem load_keeps_rules_faulty :
    (load (homeWith "") home.settingsFile = .ok default ∧ default.Valid) ∧
    ((loadOrDefault .empty home).1 = .ok default ∧ default.Valid) ∧
    ¬ faultySettings.Valid ∧
    load (homeWith faulty) home.settingsFile = .error (.invalid (.missingExecutable "é")) ∧
    loadOrDefault (homeWith faulty) home =
      (.error (.invalid (.missingExecutable "é")), homeWith faulty) := by
  obtain ⟨hload, hloadOrDefault, hread⟩ := load_keeps_rules
  have hempty : load (homeWith "") home.settingsFile = .ok default :=
    (hread (readText_homeWith "") rfl rfl).1 valid_default
  have hnone : loadOrDefault .empty home = (.ok default, _) := rfl
  obtain ⟨v, hparse, hvalue⟩ : ∃ v, Toml.parse faulty = some v ∧ ofValue v = .ok faultySettings :=
    ⟨_, rfl, rfl⟩
  obtain ⟨-, hrefused, hsame⟩ := hread (readText_homeWith faulty) hparse hvalue
  have hinvalid : ¬ faultySettings.Valid := fun h =>
    (h.plugins ("é", _) (by decide : ("é", ⟨"", [], none, []⟩) ∈ faultySettings.plugins)).2 rfl
  obtain ⟨rule, hfirst, herror⟩ := hrefused hinvalid
  obtain rfl := hfirst.unique firstBroken_faulty
  have hstays : loadOrDefault (homeWith faulty) home = _ := hsame rfl rfl
  exact ⟨⟨hempty, hload hempty⟩, ⟨congrArg Prod.fst hnone, hloadOrDefault hnone⟩, hinvalid, herror,
    herror ▸ hstays⟩

end NativeMessaging.Settings
