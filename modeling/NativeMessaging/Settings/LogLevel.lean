import NativeMessaging.Json.Decoder

/-!
# Settings — LogLevel

How much is logged, from everything to errors only.
-/

namespace NativeMessaging

inductive LogLevel where
  | trace
  | debug
  | info
  | warn
  | error
  deriving DecidableEq, Repr

namespace LogLevel

/-- The word for a level, which is also the directive that selects it. -/
def word : LogLevel → String
  | .trace => "trace"
  | .debug => "debug"
  | .info  => "info"
  | .warn  => "warn"
  | .error => "error"

def all : List LogLevel := [.trace, .debug, .info, .warn, .error]

def choices : List (String × LogLevel) := all.map fun level => (level.word, level)

/-- The level that a text spells. -/
def decode (s : String) : Except Json.Error LogLevel :=
  Json.readAll (fun _ => Json.Decoder.choice choices) s

/-- The text of a level. -/
def print (level : LogLevel) : String := (Json.string level.word).print

end LogLevel

end NativeMessaging
