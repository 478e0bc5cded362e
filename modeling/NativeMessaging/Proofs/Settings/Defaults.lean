import Mathlib.Data.Option.Basic
import NativeMessaging.Proofs.Frame.Stream
import NativeMessaging.Proofs.Settings.Document
import NativeMessaging.Settings.Load

/-!
# Settings — Defaults: what is left out, and what is written out

The values that hold where keys are absent are there twice: for a whole part of the settings that
is left out, and for each key of a part that is there.  They agree, at every depth: a document means
the same when some of its absent keys are written out with their documented values, and other keys
come and go (`Completes`).

* `Agrees.ofMembers`: one field, which keeps its value when its table is supplemented.
* `readLogging_completed`, `readLimits_completed`, `readPlugin_completed`, `readPlugins_completed`,
  `ofValue_completed`: the records, from the innermost to the whole.
* `load_completed`: whole documents, and a host without one.
-/

namespace NativeMessaging.Settings

open Files (Tree Path)
open Shape (Mismatch)
open Shape.Field (ofMembers_eq_ok_iff)
open Toml (Entries TableKind Value)

/-! ### Documented defaults -/

/-- A key of a table, which may be written out where it is absent: what its value may become where
it is there, and the values that it may get where it is not. -/
structure Key where
  name : String
  keeps : Value → Value → Prop
  adds : Value → Prop

/-- The keys of a table stay, and some that were absent are written out.  Keys of other names do not
matter. -/
structure Supplements (keys : List Key) (entries entries' : Entries) : Prop where
  kept : ∀ key ∈ keys, ∀ v, entries.lookup key.name = some v →
    ∃ v', entries'.lookup key.name = some v' ∧ key.keeps v v'
  added : ∀ key ∈ keys, ∀ v', entries.lookup key.name = none →
    entries'.lookup key.name = some v' → key.adds v'

/-- A value that stays, or a table that is supplemented. -/
inductive Completes (keys : List Key) : Value → Value → Prop where
  | same (v : Value) : Completes keys v v
  | table {kind kind' : TableKind} {entries entries' : Entries}
      (h : Supplements keys entries entries') :
      Completes keys (.table kind entries) (.table kind' entries')

/-- A table with nothing in it. -/
def IsEmptyTable (v : Value) : Prop := ∃ kind, v = .table kind []

/-- A key whose value stays. -/
def Key.plain (name : String) (adds : Value → Prop) : Key := ⟨name, fun v v' => v' = v, adds⟩

/-- A key whose value has keys of its own.  Where it is absent, it may be written out as an empty
table, or as one with some of these keys. -/
def Key.part (name : String) (keys : List Key) : Key :=
  ⟨name, Completes keys, Completes keys (.table .header [])⟩

/-- The keys of the part about the logs; a name of the log cannot be written out. -/
def loggingKeys : List Key :=
  [.plain "level" (· = .string "info"), .plain "max_log_files" (· = .integer 7),
    .plain "stderr" (· = .boolean false), .plain "file_name" fun _ => False]

/-- The keys of the part about the sizes. -/
def limitsKeys : List Key :=
  [.plain "max_chunk_size" (· = .integer 786432), .plain "max_frame_bytes" (· = .integer 67108864)]

/-- The keys of a plugin; its program and its working directory cannot be written out. -/
def pluginKeys : List Key :=
  [.plain "executable" fun _ => False, .plain "args" (· = .array []),
    .plain "working_dir" fun _ => False, .plain "env" IsEmptyTable]

/-- The same plugins, each of them completed. -/
inductive CompletesPlugins : Value → Value → Prop where
  | same (v : Value) : CompletesPlugins v v
  | table {kind kind' : TableKind} {entries entries' : Entries}
      (h : ∀ name, Option.Rel (Completes pluginKeys) (entries.lookup name) (entries'.lookup name)) :
      CompletesPlugins (.table kind entries) (.table kind' entries')

/-- The keys of a document. -/
def documentKeys : List Key :=
  [.plain "config_version" (· = .integer 1), .part "logging" loggingKeys,
    .part "protocol" limitsKeys, ⟨"plugins", CompletesPlugins, IsEmptyTable⟩]

/-! ### One field -/

/-- A field is read in the same way from what its key may become, and what the key may get is read
as what holds where it is absent. -/
structure Agrees {α : Type} (field : Field α) (key : Key) : Prop where
  name : key.name = field.name
  kept : ∀ {v v' : Value} {a : α}, v.Distinct → v'.Distinct → key.keeps v v' →
    field.read v = .ok a → field.read v' = .ok a
  added : ∀ {v' : Value}, v'.Distinct → key.adds v' →
    ∃ a, field.absent = some a ∧ field.read v' = .ok a

variable {α : Type} {keys : List Key} {v v' : Value} {entries entries' : Entries}

/-- **A field keeps its value** when its table is supplemented. -/
theorem Agrees.ofMembers {field : Field α} {key : Key} {a : α} (h : Agrees field key)
    (hkey : key ∈ keys) (hsupplements : Supplements keys entries entries')
    (hentries : entries.Distinct) (hentries' : entries'.Distinct)
    (hread : field.ofMembers entries = .ok a) : field.ofMembers entries' = .ok a := by
  refine ofMembers_eq_ok_iff.mpr ?_
  rcases ofMembers_eq_ok_iff.mp hread with ⟨v, hlookup, hread⟩ | ⟨hlookup, habsent⟩
  · rw [← h.name] at hlookup
    obtain ⟨v', hlookup', hkeeps⟩ := hsupplements.kept key hkey v hlookup
    have hread' := h.kept (hentries.of_lookup hlookup) (hentries'.of_lookup hlookup') hkeeps hread
    exact .inl ⟨v', h.name ▸ hlookup', hread'⟩
  · cases hlookup' : entries'.lookup field.name with
    | none    => exact .inr ⟨rfl, habsent⟩
    | some v' =>
        rw [← h.name] at hlookup hlookup'
        have hadds := hsupplements.added key hkey v' hlookup hlookup'
        obtain ⟨a', habsent', hread'⟩ := h.added (hentries'.of_lookup hlookup') hadds
        obtain rfl := Option.some.inj (habsent.symm.trans habsent')
        exact .inl ⟨v', rfl, hread'⟩

/-- A key whose value stays agrees with its field where its default does. -/
theorem Agrees.plain {field : Field α} {adds : Value → Prop}
    (h : ∀ v', adds v' → ∃ a, field.absent = some a ∧ field.read v' = .ok a) :
    Agrees field (.plain field.name adds) where
  name := rfl
  kept _ _ hkeeps hread := hkeeps ▸ hread
  added _ := h _

/-- The key of a part agrees with its field where completing keeps what is read, and an empty table
is read as what holds where the part is absent. -/
theorem Agrees.part {field : Field α} {a : α}
    (hcompleted : ∀ {v v' : Value} {a : α}, v.Distinct → v'.Distinct → Completes keys v v' →
      field.read v = .ok a → field.read v' = .ok a)
    (habsent : field.absent = some a) (hempty : field.read (.table .header []) = .ok a) :
    Agrees field (.part field.name keys) where
  name := rfl
  kept := hcompleted
  added hv' hadds :=
    ⟨a, habsent, hcompleted (Value.distinct_table_iff.mpr .nil) hv' hadds hempty⟩

/-- An empty table is a default where it is read as what holds in its absence. -/
theorem exists_read_of_isEmptyTable {field : Field α} {a : α} (habsent : field.absent = some a)
    (hempty : ∀ kind, field.read (.table kind []) = .ok a) (v' : Value) (h : IsEmptyTable v') :
    ∃ a, field.absent = some a ∧ field.read v' = .ok a := by
  obtain ⟨kind, rfl⟩ := h
  exact ⟨a, habsent, hempty kind⟩

/-- One value is a default where it is read as what holds in its absence. -/
theorem exists_read_of_eq {field : Field α} {a : α} {w : Value} (habsent : field.absent = some a)
    (hread : field.read w = .ok a) (v' : Value) (h : v' = w) :
    ∃ a, field.absent = some a ∧ field.read v' = .ok a :=
  ⟨a, habsent, h ▸ hread⟩

/-! ### The records -/

/-- A completed value is read as before where supplemented tables are. -/
theorem Completes.read_eq_ok {read : Value → Except Mismatch α} {a : α} (h : Completes keys v v')
    (hv : v.Distinct) (hv' : v'.Distinct) (hread : read v = .ok a)
    (htable : ∀ {kind kind' : TableKind} {entries entries' : Entries},
      Supplements keys entries entries' → entries.Distinct → entries'.Distinct →
      read (.table kind entries) = .ok a → read (.table kind' entries') = .ok a) :
    read v' = .ok a := by
  cases h with
  | same               => exact hread
  | table hsupplements =>
      exact htable hsupplements (Value.distinct_table_iff.mp hv) (Value.distinct_table_iff.mp hv')
        hread

theorem readLogging_completed {logging : Logging} (hv : v.Distinct) (hv' : v'.Distinct)
    (h : Completes loggingKeys v v') (hread : readLogging v = .ok logging) :
    readLogging v' = .ok logging := by
  refine h.read_eq_ok hv hv' hread fun hsupplements hentries hentries' hread => ?_
  obtain ⟨hlevel, hmaxFiles, hstderr, hfileName⟩ := (readLogging_table_iff hentries).mp hread
  have level : Agrees levelField (.plain "level" (· = .string "info")) :=
    .plain (exists_read_of_eq rfl rfl)
  have maxFiles : Agrees maxFilesField (.plain "max_log_files" (· = .integer 7)) :=
    .plain (exists_read_of_eq rfl rfl)
  have stderr : Agrees stderrField (.plain "stderr" (· = .boolean false)) :=
    .plain (exists_read_of_eq rfl rfl)
  have fileName : Agrees fileNameField (.plain "file_name" fun _ => False) :=
    .plain fun _ => False.elim
  exact (readLogging_table_iff hentries').mpr
    ⟨level.ofMembers (by simp [loggingKeys]) hsupplements hentries hentries' hlevel,
      maxFiles.ofMembers (by simp [loggingKeys]) hsupplements hentries hentries' hmaxFiles,
      stderr.ofMembers (by simp [loggingKeys]) hsupplements hentries hentries' hstderr,
      fileName.ofMembers (by simp [loggingKeys]) hsupplements hentries hentries' hfileName⟩

theorem readLimits_completed {limits : Limits} (hv : v.Distinct) (hv' : v'.Distinct)
    (h : Completes limitsKeys v v') (hread : readLimits v = .ok limits) :
    readLimits v' = .ok limits := by
  refine h.read_eq_ok hv hv' hread fun hsupplements hentries hentries' hread => ?_
  obtain ⟨hmaxChunkSize, hmaxFrameBytes⟩ := (readLimits_table_iff hentries).mp hread
  have maxChunkSize : Agrees maxChunkSizeField
      (.plain "max_chunk_size" (· = .integer 786432)) := .plain (exists_read_of_eq rfl rfl)
  have maxFrameBytes : Agrees maxFrameBytesField
      (.plain "max_frame_bytes" (· = .integer 67108864)) := .plain (exists_read_of_eq rfl rfl)
  exact (readLimits_table_iff hentries').mpr
    ⟨maxChunkSize.ofMembers (by simp [limitsKeys]) hsupplements hentries hentries' hmaxChunkSize,
      maxFrameBytes.ofMembers (by simp [limitsKeys]) hsupplements hentries hentries' hmaxFrameBytes⟩

theorem readPlugin_completed {entry : PluginEntry} (hv : v.Distinct) (hv' : v'.Distinct)
    (h : Completes pluginKeys v v') (hread : readPlugin v = .ok entry) :
    readPlugin v' = .ok entry := by
  refine h.read_eq_ok hv hv' hread fun hsupplements hentries hentries' hread => ?_
  obtain ⟨hexecutable, hargs, hworking, henvironment⟩ := (readPlugin_table_iff hentries).mp hread
  have executable : Agrees executableField (.plain "executable" fun _ => False) :=
    .plain fun _ => False.elim
  have args : Agrees argsField (.plain "args" (· = .array [])) :=
    .plain (exists_read_of_eq rfl rfl)
  have working : Agrees workingDirectoryField (.plain "working_dir" fun _ => False) :=
    .plain fun _ => False.elim
  have environment : Agrees environmentField (.plain "env" IsEmptyTable) :=
    .plain (exists_read_of_isEmptyTable rfl fun _ => rfl)
  exact (readPlugin_table_iff hentries').mpr
    ⟨executable.ofMembers (by simp [pluginKeys]) hsupplements hentries hentries' hexecutable,
      args.ofMembers (by simp [pluginKeys]) hsupplements hentries hentries' hargs,
      working.ofMembers (by simp [pluginKeys]) hsupplements hentries hentries' hworking,
      environment.ofMembers (by simp [pluginKeys]) hsupplements hentries hentries' henvironment⟩

/-- What is made of values that are there or not, one of each pair being made into the same. -/
theorem map_eq_of_rel {r : Value → Value → Prop} {o o' : Option Value} {f : Value → α}
    (h : Option.Rel r o o') (heach : ∀ v ∈ o, ∀ v' ∈ o', r v v' → f v' = f v) :
    o'.map f = o.map f := by
  cases h with
  | some h => exact congrArg some (heach _ rfl _ rfl h)
  | none   => rfl

theorem readPlugins_completed {plugins : List (String × PluginEntry)} (hv : v.Distinct)
    (hv' : v'.Distinct) (h : CompletesPlugins v v') (hread : pluginsField.read v = .ok plugins) :
    pluginsField.read v' = .ok plugins := by
  cases h with
  | same         => exact hread
  | @table kind kind' entries entries' heach =>
      rw [Value.distinct_table_iff] at hv hv'
      obtain ⟨read, hmap, hsorted⟩ := map_eq_ok_iff.mp hread
      have hsame (name : String) :
          (entries'.lookup name).map readPlugin = (entries.lookup name).map readPlugin := by
        refine map_eq_of_rel (heach name) fun v hlookup v' hlookup' hcompletes => ?_
        -- a plugin that is there was read, since all were
        have hplugin := Toml.Read.lookup_map hmap name
        rw [Option.mem_def.mp hlookup] at hplugin
        obtain ⟨entry, -, hentry⟩ := Option.map_eq_some_iff.mp hplugin.symm
        have hentry' := readPlugin_completed (hv.of_lookup hlookup) (hv'.of_lookup hlookup')
          hcompletes hentry.symm
        exact hentry'.trans hentry
      obtain ⟨read', hmap', hregistry⟩ := Toml.Read.ofList_map hv.nodup hv'.nodup hsame hmap
      exact map_eq_ok_iff.mpr
        ⟨read', hmap', (congrArg Plugin.Registry.entries hregistry).trans hsorted⟩

theorem ofValue_completed {settings : Settings} (hv : v.Distinct) (hv' : v'.Distinct)
    (h : Completes documentKeys v v') (hread : ofValue v = .ok settings) :
    ofValue v' = .ok settings := by
  refine h.read_eq_ok hv hv' hread fun hsupplements hentries hentries' hread => ?_
  obtain ⟨hversion, hlogging, hlimits, hplugins⟩ := (ofValue_table_iff hentries).mp hread
  have version : Agrees versionField (.plain "config_version" (· = .integer 1)) :=
    .plain (exists_read_of_eq rfl rfl)
  have logging : Agrees loggingField (.part "logging" loggingKeys) :=
    .part readLogging_completed rfl rfl
  have limits : Agrees limitsField (.part "protocol" limitsKeys) :=
    .part readLimits_completed rfl rfl
  have plugins : Agrees pluginsField ⟨"plugins", CompletesPlugins, IsEmptyTable⟩ :=
    ⟨rfl, readPlugins_completed, fun _ => exists_read_of_isEmptyTable rfl (fun _ => rfl) _⟩
  exact (ofValue_table_iff hentries').mpr
    ⟨version.ofMembers (by simp [documentKeys]) hsupplements hentries hentries' hversion,
      logging.ofMembers (by simp [documentKeys]) hsupplements hentries hentries' hlogging,
      limits.ofMembers (by simp [documentKeys]) hsupplements hentries hentries' hlimits,
      plugins.ofMembers (by simp [documentKeys]) hsupplements hentries hentries' hplugins⟩

/-! ### Documents -/

/-- **Absent, empty and written out mean the same.**  A document that is loaded gives the same
settings when it is completed: some of its absent keys are written out with their documented values,
in the document, in the parts about the logs and the sizes and in each plugin, the parts themselves
included, and keys of other names come and go there.  A host without a document has the settings of
an empty one. -/
theorem load_completed :
    (∀ {tree tree' : Tree} {path path' : Path} {text text' : String} {v v' : Value}
      {settings : Settings}, tree.readText path = .ok text → Toml.parse text = some v →
      tree'.readText path' = .ok text' → Toml.parse text' = some v' →
      Completes documentKeys v v' → load tree path = .ok settings →
        load tree' path' = .ok settings) ∧
    ∀ {tree ready : Tree} {dirs : Directories}, dirs.ensure tree = (.ok (), ready) →
      ready.exists? dirs.settingsFile = false →
        ∃ settings, loadOrDefault tree dirs = (.ok settings, ready) ∧
          ∀ {tree' : Tree} {path' : Path}, tree'.readText path' = .ok "" →
            load tree' path' = .ok settings := by
  constructor
  · intro tree tree' path path' text text' v v' settings htext hparse htext' hparse' hcompletes
      hload
    obtain ⟨w, hw, hread, hcheck⟩ := (load_eq_ok_iff htext).mp hload
    obtain rfl := Option.some.inj (hparse.symm.trans hw)
    have hread' := ofValue_completed (Toml.distinct_parse hparse) (Toml.distinct_parse hparse')
      hcompletes hread
    exact (load_eq_ok_iff htext').mpr ⟨v', hparse', hread', hcheck⟩
  · intro tree ready dirs hensure hmissing
    have hdefault : loadOrDefault tree dirs = (.ok default, ready) := by
      simp only [loadOrDefault, hensure, hmissing, Bool.false_eq_true, if_false]
    refine ⟨default, hdefault, fun htext => ?_⟩
    exact (load_eq_ok_iff htext).mpr ⟨.table .header [], rfl, rfl, rfl⟩

/-- A plugin, and nothing else. -/
def terse : String := "[plugins.text]\nexecutable = \"cat\"\n"

/-- The same plugin, with defaults written out, and keys that do not matter. -/
def wordy : String :=
  "config_version = 1\ncolour = \"red\"\n[logging]\nlevel = \"info\"\nmax_log_files = 7\n" ++
  "[protocol]\nmax_chunk_size = 786432\n" ++
  "[plugins.text]\nexecutable = \"cat\"\nargs = []\nenv = \x7b\x7d\nicon = 1\n"

def terseEntries : Entries :=
  [("plugins", .table .passed [("text", .table .header [("executable", .string "cat")])])]

def wordyEntries : Entries :=
  [("config_version", .integer 1), ("colour", .string "red"),
    ("logging", .table .header [("level", .string "info"), ("max_log_files", .integer 7)]),
    ("protocol", .table .header [("max_chunk_size", .integer 786432)]),
    ("plugins", .table .passed [("text", .table .header
      [("executable", .string "cat"), ("args", .array []), ("env", .table .inline []),
        ("icon", .integer 1)])])]

theorem completes_wordy :
    Completes documentKeys (.table .header terseEntries) (.table .header wordyEntries) := by
  have hlogging : Completes loggingKeys (.table .header [])
      (.table .header [("level", .string "info"), ("max_log_files", .integer 7)]) :=
    .table ⟨by simp, by simp [loggingKeys, Key.plain, List.lookup_cons]⟩
  have hlimits : Completes limitsKeys (.table .header [])
      (.table .header [("max_chunk_size", .integer 786432)]) :=
    .table ⟨by simp, by simp [limitsKeys, Key.plain, List.lookup_cons]⟩
  have hplugin : Completes pluginKeys (.table .header [("executable", .string "cat")])
      (.table .header [("executable", .string "cat"), ("args", .array []),
        ("env", .table .inline []), ("icon", .integer 1)]) :=
    .table ⟨by simp [pluginKeys, Key.plain, List.lookup_cons],
      by simp [pluginKeys, Key.plain, List.lookup_cons, IsEmptyTable]⟩
  have hplugins : CompletesPlugins
      (.table .passed [("text", .table .header [("executable", .string "cat")])])
      (.table .passed [("text", .table .header [("executable", .string "cat"), ("args", .array []),
        ("env", .table .inline []), ("icon", .integer 1)])]) := by
    refine .table fun name => ?_
    rw [lookup_cons_ite, lookup_cons_ite]
    split
    · exact .some hplugin
    · exact .none
  refine .table ⟨?_, ?_⟩
  · simpa [documentKeys, Key.plain, Key.part, List.lookup_cons, terseEntries, wordyEntries]
  · simpa [documentKeys, Key.plain, Key.part, List.lookup_cons, terseEntries, wordyEntries]
      using ⟨hlogging, hlimits⟩

/-- All files, where only the settings are there. -/
def treeWith (text : String) : Tree :=
  ⟨[("config.toml", .file (Text.Utf8.encode text) false 0)], [], 0⟩

theorem readText_treeWith (text : String) :
    (treeWith text).readText ⟨"/config.toml"⟩ = .ok text := by
  have hfind : (treeWith text).find ⟨"/config.toml"⟩ =
      .ok (.file (Text.Utf8.encode text) false 0) := rfl
  rw [Tree.readText, hfind]
  dsimp only
  rw [Text.Utf8.decode_encode]

set_option maxRecDepth 4000 in
/-- A short document and a long one give the same settings, and so do no document and an empty
one. -/
theorem load_completed_wordy :
    load (treeWith wordy) ⟨"/config.toml"⟩ =
      .ok ⟨1, .default, .default, [("text", ⟨"cat", [], none, []⟩)]⟩ ∧
    ∃ settings, (loadOrDefault .empty (.below ⟨"/host"⟩)).1 = .ok settings ∧
      load (treeWith "") ⟨"/config.toml"⟩ = .ok settings := by
  have hterse : Toml.parse terse = some (.table .header terseEntries) := rfl
  have hwordy : Toml.parse wordy = some (.table .header wordyEntries) := rfl
  have hload : load (treeWith terse) ⟨"/config.toml"⟩ =
      .ok ⟨1, .default, .default, [("text", ⟨"cat", [], none, []⟩)]⟩ :=
    (load_eq_ok_iff (readText_treeWith terse)).mpr ⟨_, hterse, rfl, rfl⟩
  refine ⟨load_completed.1 (readText_treeWith terse) hterse (readText_treeWith wordy) hwordy
    completes_wordy hload, ?_⟩
  obtain ⟨settings, hdefault, hempty⟩ := load_completed.2
    (rfl : (Directories.below ⟨"/host"⟩).ensure .empty = (.ok (), _)) (by decide)
  exact ⟨settings, congrArg Prod.fst hdefault, hempty (readText_treeWith "")⟩

end NativeMessaging.Settings
