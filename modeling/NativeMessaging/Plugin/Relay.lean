import NativeMessaging.Plugin.Line
import NativeMessaging.Text.Blank
import NativeMessaging.Text.Utf8

/-!
# Plugin — Relay

What the host takes from the output of a plugin after its greeting.  The output is cut into lines; a
line that spells a command or a response is a call to relay, every other line is skipped, and a line
that is not text ends the relay.
-/

namespace NativeMessaging.Relay

/-- One half of a call that a plugin asks the host to relay. -/
structure Call where
  direction : Direction
  colony : ColonyId
  id : MessageId
  text : String
  deriving DecidableEq, Repr

/-- A line without the carriage return before its line feed. -/
def withoutReturn (line : List UInt8) : List UInt8 :=
  if line.getLast? = some 13 then line.dropLast else line

/-- Cuts bytes at line feeds: the line under way is held with its last byte first.  Bytes behind the
last line feed are a line only when nothing can follow them. -/
def cutLines (ended : Bool) : (line : List UInt8) → List UInt8 → List (List UInt8)
  | line, []      => if ended && !line.isEmpty then [line.reverse] else []
  | line, b :: bs =>
    if b = 10 then withoutReturn line.reverse :: cutLines ended [] bs
    else cutLines ended (b :: line) bs

/-- The lines of an output, the last one included where it is complete. -/
def lines (ended : Bool) (output : List UInt8) : List (List UInt8) := cutLines ended [] output

/-- The call that a line asks for. -/
def callOf (line : String) : Option Call :=
  if Text.isAllBlank line then none
  else
    match PluginMessage.decode line with
    | .ok (.command colony id text)  => some ⟨.command, colony, id, text⟩
    | .ok (.response colony id text) => some ⟨.response, colony, id, text⟩
    | .ok (.ready _ _)               => none
    | .error _                       => none

/-- The calls that lines ask for, and whether a line that is not text ended them. -/
def callsOf : List (List UInt8) → List Call × Bool
  | []            => ([], false)
  | line :: lines =>
    match Text.Utf8.decode line with
    | .error _ => ([], true)
    | .ok text =>
      let (calls, broken) := callsOf lines
      ((callOf text).toList ++ calls, broken)

/-- The calls that an output asks for so far, and whether a line that is not text ended them. -/
def calls (ended : Bool) (output : List UInt8) : List Call × Bool := callsOf (lines ended output)

end NativeMessaging.Relay
