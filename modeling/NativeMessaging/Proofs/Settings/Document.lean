import NativeMessaging.Proofs.Toml.Parser
import NativeMessaging.Proofs.Toml.Shape
import NativeMessaging.Settings.Load

/-!
# Settings — Document: records read from tables

Where no key is there twice, a record is read from a table field by field: each field is what its
key spells, or what it is where the key is absent, and other keys do not matter.

* `record_table_iff`: where the fields have values, nothing is wrong with the keys.
* `four_fields_iff`, `two_fields_iff`: records of four and of two fields.
* `readLogging_table_iff`, `readLimits_table_iff`, `readPlugin_table_iff`, `ofValue_table_iff`: the
  records of the settings.
* `load_eq_ok_iff`: a file of settings.
-/

namespace NativeMessaging.Settings

open Shape (Content Mismatch)
open Shape.Field (shape_read_of_ofMembers)
open Toml (Entries TableKind Value)

variable {α β γ δ ρ : Type} {name label : String} {kind : TableKind} {entries : Entries}

/-! ### Any record -/

/-- **A record** is read from a table as its fields are, if those that are there have values. -/
theorem record_table_iff {fields : List (Field Unit)} {build : Content Value → Except Mismatch ρ}
    {r : ρ} (h : entries.Distinct)
    (hfields : build (.members entries) = .ok r →
      ∀ field ∈ fields, ∀ v, entries.lookup field.name = some v → field.read v = .ok ()) :
    (Toml.Read.content (recordName name) (.table kind entries) >>= fun content =>
        checkContent fields content >>= fun _ => build content) = .ok r ↔
      build (.members entries) = .ok r := by
  constructor
  · intro hread
    obtain ⟨content, hcontent, hread⟩ := bind_eq_ok_iff.mp hread
    obtain ⟨-, -, hread⟩ := bind_eq_ok_iff.mp hread
    exact Except.ok.inj hcontent ▸ hread
  · intro hbuild
    have hcheck : checkContent fields (.members entries) = .ok () :=
      Shape.checkMembers_eq_ok h.nodup (hfields hbuild)
    exact bind_eq_ok_iff.mpr ⟨.members entries, rfl, bind_eq_ok_iff.mpr ⟨(), hcheck, hbuild⟩⟩

/-- A record of four fields. -/
theorem four_fields_iff {f₁ : Field α} {f₂ : Field β} {f₃ : Field γ} {f₄ : Field δ}
    {make : α → β → γ → δ → ρ} {r : ρ} (h : entries.Distinct) :
    (Toml.Read.content (recordName name) (.table kind entries) >>= fun content =>
        checkContent [f₁.shape, f₂.shape, f₃.shape, f₄.shape] content >>= fun _ =>
        fieldOf f₁ label 0 content >>= fun a => fieldOf f₂ label 1 content >>= fun b =>
        fieldOf f₃ label 2 content >>= fun c => fieldOf f₄ label 3 content >>= fun d =>
          .ok (make a b c d)) = .ok r ↔
      ∃ a b c d, make a b c d = r ∧ f₁.ofMembers entries = .ok a ∧ f₂.ofMembers entries = .ok b ∧
        f₃.ofMembers entries = .ok c ∧ f₄.ofMembers entries = .ok d := by
  have hbuild : (f₁.ofMembers entries >>= fun a => f₂.ofMembers entries >>= fun b =>
      f₃.ofMembers entries >>= fun c => f₄.ofMembers entries >>= fun d =>
        Except.ok (make a b c d)) = .ok r ↔
      ∃ a b c d, make a b c d = r ∧ f₁.ofMembers entries = .ok a ∧ f₂.ofMembers entries = .ok b ∧
        f₃.ofMembers entries = .ok c ∧ f₄.ofMembers entries = .ok d := by
    simp only [bind_eq_ok_iff]
    constructor
    · rintro ⟨a, ha, b, hb, c, hc, d, hd, hr⟩
      exact ⟨a, b, c, d, Except.ok.inj hr, ha, hb, hc, hd⟩
    · rintro ⟨a, b, c, d, rfl, ha, hb, hc, hd⟩
      exact ⟨a, ha, b, hb, c, hc, d, hd, rfl⟩
  refine (record_table_iff h fun hread => ?_).trans hbuild
  obtain ⟨a, b, c, d, -, ha, hb, hc, hd⟩ := hbuild.mp hread
  simp only [List.forall_mem_cons]
  exact ⟨shape_read_of_ofMembers ha, shape_read_of_ofMembers hb, shape_read_of_ofMembers hc,
    shape_read_of_ofMembers hd, List.forall_mem_nil _⟩

/-- A record of two fields. -/
theorem two_fields_iff {f₁ : Field α} {f₂ : Field β} {make : α → β → ρ} {r : ρ}
    (h : entries.Distinct) :
    (Toml.Read.content (recordName name) (.table kind entries) >>= fun content =>
        checkContent [f₁.shape, f₂.shape] content >>= fun _ =>
        fieldOf f₁ label 0 content >>= fun a => fieldOf f₂ label 1 content >>= fun b =>
          .ok (make a b)) = .ok r ↔
      ∃ a b, make a b = r ∧ f₁.ofMembers entries = .ok a ∧ f₂.ofMembers entries = .ok b := by
  have hbuild : (f₁.ofMembers entries >>= fun a => f₂.ofMembers entries >>= fun b =>
        Except.ok (make a b)) = .ok r ↔
      ∃ a b, make a b = r ∧ f₁.ofMembers entries = .ok a ∧ f₂.ofMembers entries = .ok b := by
    simp only [bind_eq_ok_iff]
    constructor
    · rintro ⟨a, ha, b, hb, hr⟩
      exact ⟨a, b, Except.ok.inj hr, ha, hb⟩
    · rintro ⟨a, b, rfl, ha, hb⟩
      exact ⟨a, ha, b, hb, rfl⟩
  refine (record_table_iff h fun hread => ?_).trans hbuild
  obtain ⟨a, b, -, ha, hb⟩ := hbuild.mp hread
  simp only [List.forall_mem_cons]
  exact ⟨shape_read_of_ofMembers ha, shape_read_of_ofMembers hb, List.forall_mem_nil _⟩

/-! ### The records of the settings -/

theorem readLogging_table_iff {logging : Logging} (h : entries.Distinct) :
    readLogging (.table kind entries) = .ok logging ↔
      levelField.ofMembers entries = .ok logging.level ∧
      maxFilesField.ofMembers entries = .ok logging.maxFiles ∧
      stderrField.ofMembers entries = .ok logging.stderr ∧
      fileNameField.ofMembers entries = .ok logging.fileName := by
  refine (four_fields_iff h).trans ⟨?_, fun hfields => ⟨_, _, _, _, rfl, hfields⟩⟩
  rintro ⟨level, maxFiles, stderr, fileName, rfl, hfields⟩
  exact hfields

theorem readLimits_table_iff {limits : Limits} (h : entries.Distinct) :
    readLimits (.table kind entries) = .ok limits ↔
      maxChunkSizeField.ofMembers entries = .ok limits.maxChunkSize ∧
      maxFrameBytesField.ofMembers entries = .ok limits.maxFrameBytes := by
  refine (two_fields_iff h).trans ⟨?_, fun hfields => ⟨_, _, rfl, hfields⟩⟩
  rintro ⟨maxChunkSize, maxFrameBytes, rfl, hfields⟩
  exact hfields

theorem readPlugin_table_iff {entry : PluginEntry} (h : entries.Distinct) :
    readPlugin (.table kind entries) = .ok entry ↔
      executableField.ofMembers entries = .ok entry.executable ∧
      argsField.ofMembers entries = .ok entry.args ∧
      workingDirectoryField.ofMembers entries = .ok entry.workingDirectory ∧
      environmentField.ofMembers entries = .ok entry.environment := by
  refine (four_fields_iff h).trans ⟨?_, fun hfields => ⟨_, _, _, _, rfl, hfields⟩⟩
  rintro ⟨executable, args, workingDirectory, environment, rfl, hfields⟩
  exact hfields

theorem ofValue_table_iff {settings : Settings} (h : entries.Distinct) :
    ofValue (.table kind entries) = .ok settings ↔
      versionField.ofMembers entries = .ok settings.version ∧
      loggingField.ofMembers entries = .ok settings.logging ∧
      limitsField.ofMembers entries = .ok settings.limits ∧
      pluginsField.ofMembers entries = .ok settings.plugins := by
  refine (four_fields_iff h).trans ⟨?_, fun hfields => ⟨_, _, _, _, rfl, hfields⟩⟩
  rintro ⟨version, logging, limits, plugins, rfl, hfields⟩
  exact hfields

/-! ### Files -/

theorem load_eq_ofText {tree : Files.Tree} {path : Files.Path} {text : String}
    (htext : tree.readText path = .ok text) : load tree path = ofText path text := by
  rw [load, htext]
  rfl

/-- **Settings are loaded** from a file that spells valid ones. -/
theorem load_eq_ok_iff {tree : Files.Tree} {path : Files.Path} {text : String} {settings : Settings}
    (htext : tree.readText path = .ok text) :
    load tree path = .ok settings ↔
      ∃ v, Toml.parse text = some v ∧ ofValue v = .ok settings ∧ settings.check = .ok () := by
  rw [load_eq_ofText htext, ofText]
  cases hparse : Toml.parse text with
  | none   => exact ⟨fun h => (by cases h), fun ⟨_, h, _⟩ => (by cases h)⟩
  | some v =>
      simp only [bind_eq_ok_iff, mapError_eq_ok_iff]
      constructor
      · rintro ⟨settings, hread, ⟨⟩, hcheck, heq⟩
        obtain rfl := Except.ok.inj heq
        exact ⟨v, rfl, hread, hcheck⟩
      · rintro ⟨v', hv, hread, hcheck⟩
        obtain rfl := Option.some.inj hv
        exact ⟨settings, hread, (), hcheck, rfl⟩

end NativeMessaging.Settings
