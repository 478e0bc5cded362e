import NativeMessaging.Text.Quoted

/-!
# Shape — Mismatch

Well-formed data that does not have the shape a record asks for: a value of another type, a number
out of range, a sequence of the wrong length, an unknown choice, a missing or repeated field, a
choice that is written as something other than its name alone.
-/

namespace NativeMessaging.Shape

/-- What stood where something else was expected.  A number with a fraction comes with its text,
since each data format writes it in its own style. -/
inductive Found where
  | null
  | boolean (b : Bool)
  | integer (i : Int)
  | real (text : String)
  | string (s : String)
  | sequence
  | map
  deriving DecidableEq, Repr

def Found.describe : Found → String
  | .null          => "null"
  | .boolean true  => "boolean `true`"
  | .boolean false => "boolean `false`"
  | .integer i     => s!"integer `{i}`"
  | .real text     => s!"floating point `{text}`"
  | .string s      => "string " ++ Text.Quoted.quote s
  | .sequence      => "sequence"
  | .map           => "map"

inductive Mismatch where
  | invalidType (found : Found) (expected : String)
  | invalidValue (found : Found) (expected : String)
  | invalidLength (length : Nat) (expected : String)
  | unknownChoice (name : String) (known : List String)
  | missingField (name : String)
  | duplicateField (name : String)
  | noChoice
  | noSingleChoice (several : Bool)
  | choiceNoTable (found : String)
  | choiceNotEmpty (found : String)
  deriving DecidableEq, Repr

/-- A name between backquotes. -/
def ticked (name : String) : String := s!"`{name}`"

/-- The choices that would have been known. -/
def oneOf : List String → String
  | []     => "nothing"
  | [a]    => ticked a
  | [a, b] => ticked a ++ " or " ++ ticked b
  | names  => "one of " ++ ", ".intercalate (names.map ticked)

def Mismatch.message : Mismatch → String
  | .invalidType found expected    => s!"invalid type: {found.describe}, expected {expected}"
  | .invalidValue found expected   => s!"invalid value: {found.describe}, expected {expected}"
  | .invalidLength length expected => s!"invalid length {length}, expected {expected}"
  | .unknownChoice name known      => s!"unknown variant {ticked name}, expected {oneOf known}"
  | .missingField name             => s!"missing field {ticked name}"
  | .duplicateField name           => s!"duplicate field {ticked name}"
  | .noChoice                      => "wanted string or table"
  | .noSingleChoice false          => "wanted exactly 1 element, found 0 elements"
  | .noSingleChoice true           => "wanted exactly 1 element, more than 1 element"
  | .choiceNoTable found           => s!"expected table, found {found}"
  | .choiceNotEmpty found          => s!"expected empty {found}"

/-- How many elements a sequence should have had. -/
def elements : Nat → String
  | 1 => "1 element"
  | n => s!"{n} elements"

end NativeMessaging.Shape
