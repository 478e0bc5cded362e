import NativeMessaging.Message.Chunker
import NativeMessaging.Plugin.Registry
import NativeMessaging.Settings.LogLevel
import NativeMessaging.Text.Blank

/-!
# Settings — Basic

What a host can be set to, and which settings are valid.
-/

namespace NativeMessaging

namespace Settings

/-- The version of the settings that a host understands. -/
def currentVersion : Nat := 1

/-- How much is logged and where. -/
structure Logging where
  level : LogLevel
  maxFiles : Nat
  stderr : Bool
  fileName : Option String
  deriving DecidableEq, Repr

/-- The sizes that a host keeps to. -/
structure Limits where
  maxChunkSize : Nat
  maxFrameBytes : Nat
  deriving DecidableEq, Repr

/-- A plugin that is a program of its own. -/
structure PluginEntry where
  executable : String
  args : List String
  workingDirectory : Option String
  environment : List (String × String)
  deriving DecidableEq, Repr

/-- Why settings are not valid. -/
inductive Violation where
  | unsupportedVersion (found : Nat)
  | chunkSizeOutOfRange (found : Nat)
  | frameLimitZero
  | emptyMimetype
  | missingExecutable (mimetype : String)
  deriving DecidableEq, Repr

def Violation.message : Violation → String
  | .unsupportedVersion found   =>
    s!"unsupported config_version {found}, expected {currentVersion}"
  | .chunkSizeOutOfRange found  =>
    s!"protocol.max_chunk_size must be between 1 and {Chunker.maxLimit}, got {found}"
  | .frameLimitZero             => "protocol.max_frame_bytes must be at least 1"
  | .emptyMimetype              => "plugin entry with an empty mimetype"
  | .missingExecutable mimetype => s!"plugin '{mimetype}' has no executable"

def Logging.default : Logging := ⟨.info, 7, false, none⟩

def Limits.default : Limits := ⟨Chunker.maxLimit, 64 * 1024 * 1024⟩

end Settings

/-- The settings of a host; the plugins stand in ascending order of their mimetypes. -/
structure Settings where
  version : Nat
  logging : Settings.Logging
  limits : Settings.Limits
  plugins : List (String × Settings.PluginEntry)
  deriving DecidableEq, Repr

namespace Settings

/-- What holds where nothing is set. -/
def default : Settings := ⟨currentVersion, .default, .default, []⟩

/-- What is wrong with the entry of a plugin: first its mimetype, then its program. -/
def checkPlugin (mimetype : String) (entry : PluginEntry) : Except Violation Unit :=
  if Text.isAllBlank mimetype then .error .emptyMimetype
  else if entry.executable.isEmpty then .error (.missingExecutable mimetype)
  else .ok ()

/-- The first of the plugins, by mimetype, with which something is wrong. -/
def checkPlugins : List (String × PluginEntry) → Except Violation Unit
  | []                        => .ok ()
  | (mimetype, entry) :: rest => do
    checkPlugin mimetype entry
    checkPlugins rest

/-- The first rule that the settings break. -/
def check (settings : Settings) : Except Violation Unit :=
  if settings.version ≠ currentVersion then .error (.unsupportedVersion settings.version)
  else if settings.limits.maxChunkSize = 0 ∨ Chunker.maxLimit < settings.limits.maxChunkSize then
    .error (.chunkSizeOutOfRange settings.limits.maxChunkSize)
  else if settings.limits.maxFrameBytes = 0 then .error .frameLimitZero
  else checkPlugins settings.plugins

end Settings

end NativeMessaging
