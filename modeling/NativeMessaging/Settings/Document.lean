import NativeMessaging.Settings.Basic
import NativeMessaging.Toml.Parser
import NativeMessaging.Toml.Shape

/-!
# Settings — Document

Reads settings from a TOML document.  Every field may be left out but the program of a plugin, and
fields of other names do not matter.
-/

namespace NativeMessaging.Settings

open Shape (Content Mismatch elements)
open Toml (Value)

/-- A field of the document. -/
abbrev Field := Shape.Field Value

/-- The value of a field at its place in a record, given by name or in order. -/
def fieldOf {α : Type} (field : Field α) (label : String) (place : Nat) :
    Content Value → Except Mismatch α
  | .members ms => field.ofMembers ms
  | .items vs   => field.ofItems label place vs

/-- What is wrong with the fields given by name; those given in order are looked at one by one. -/
def checkContent (fields : List (Field Unit)) : Content Value → Except Mismatch Unit
  | .members ms => Shape.checkMembers fields [] ms
  | .items _    => .ok ()

/-- How a record is named. -/
def recordName (name : String) : String := s!"struct {name}"

/-- How a record is named where its elements are too few. -/
def recordLabel (name : String) (size : Nat) : String :=
  s!"{recordName name} with {elements size}"

/-- A field whose value may be anything but is never absent in what is read. -/
def optional {α : Type} (read : Value → Except Mismatch α) (v : Value) :
    Except Mismatch (Option α) := some <$> read v

/-- Entries in ascending order of their names, the last one of a name counting. -/
def sorted {α : Type} (entries : List (String × α)) : List (String × α) :=
  (Plugin.Registry.ofList entries).entries

/-! ### Logging -/

def levelField : Field LogLevel := ⟨"level", Toml.Read.choice LogLevel.choices, some .info⟩

def maxFilesField : Field Nat := ⟨"max_log_files", Toml.Read.unsigned UInt64.size "usize", some 7⟩

def stderrField : Field Bool := ⟨"stderr", Toml.Read.boolean, some false⟩

def fileNameField : Field (Option String) :=
  ⟨"file_name", optional (Toml.Read.string "a string"), some none⟩

/-- Reads how much is logged and where. -/
def readLogging (v : Value) : Except Mismatch Logging := do
  let name := "LoggingConfig"
  let content ← Toml.Read.content (recordName name) v
  checkContent [levelField.shape, maxFilesField.shape, stderrField.shape, fileNameField.shape] content
  let label := recordLabel name 4
  .ok {
    level := ← fieldOf levelField label 0 content
    maxFiles := ← fieldOf maxFilesField label 1 content
    stderr := ← fieldOf stderrField label 2 content
    fileName := ← fieldOf fileNameField label 3 content }

/-! ### Sizes -/

def maxChunkSizeField : Field Nat :=
  ⟨"max_chunk_size", Toml.Read.unsigned UInt64.size "usize", some Limits.default.maxChunkSize⟩

def maxFrameBytesField : Field Nat :=
  ⟨"max_frame_bytes", Toml.Read.unsigned UInt64.size "usize", some Limits.default.maxFrameBytes⟩

/-- Reads the sizes that a host keeps to. -/
def readLimits (v : Value) : Except Mismatch Limits := do
  let name := "ProtocolConfig"
  let content ← Toml.Read.content (recordName name) v
  checkContent [maxChunkSizeField.shape, maxFrameBytesField.shape] content
  let label := recordLabel name 2
  .ok {
    maxChunkSize := ← fieldOf maxChunkSizeField label 0 content
    maxFrameBytes := ← fieldOf maxFrameBytesField label 1 content }

/-! ### Plugins -/

def executableField : Field String := ⟨"executable", Toml.Read.string "path string", none⟩

def argsField : Field (List String) :=
  ⟨"args", Toml.Read.list (Toml.Read.string "a string"), some []⟩

def workingDirectoryField : Field (Option String) :=
  ⟨"working_dir", optional (Toml.Read.string "path string"), some none⟩

def environmentField : Field (List (String × String)) :=
  ⟨"env", fun v => sorted <$> Toml.Read.map (Toml.Read.string "a string") v, some []⟩

/-- Reads the entry of a plugin. -/
def readPlugin (v : Value) : Except Mismatch PluginEntry := do
  let name := "PluginConfig"
  let content ← Toml.Read.content (recordName name) v
  checkContent
    [executableField.shape, argsField.shape, workingDirectoryField.shape, environmentField.shape]
    content
  let label := recordLabel name 4
  .ok {
    executable := ← fieldOf executableField label 0 content
    args := ← fieldOf argsField label 1 content
    workingDirectory := ← fieldOf workingDirectoryField label 2 content
    environment := ← fieldOf environmentField label 3 content }

/-! ### The whole -/

def versionField : Field Nat :=
  ⟨"config_version", Toml.Read.unsigned UInt32.size "u32", some currentVersion⟩

def loggingField : Field Logging := ⟨"logging", readLogging, some .default⟩

def limitsField : Field Limits := ⟨"protocol", readLimits, some .default⟩

def pluginsField : Field (List (String × PluginEntry)) :=
  ⟨"plugins", fun v => sorted <$> Toml.Read.map readPlugin v, some []⟩

/-- Reads settings. -/
def ofValue (v : Value) : Except Mismatch Settings := do
  let name := "Config"
  let content ← Toml.Read.content (recordName name) v
  checkContent [versionField.shape, loggingField.shape, limitsField.shape, pluginsField.shape] content
  let label := recordLabel name 4
  .ok {
    version := ← fieldOf versionField label 0 content
    logging := ← fieldOf loggingField label 1 content
    limits := ← fieldOf limitsField label 2 content
    plugins := ← fieldOf pluginsField label 3 content }

end NativeMessaging.Settings
