import NativeMessaging.Decimal.Shortest

/-!
# Toml — Value

What a TOML document holds.  A table keeps its entries in the order in which they were made, and
remembers how it came to be, since that decides what later lines may add to it.
-/

namespace NativeMessaging.Toml

open Decimal (Binary64)

/-- A floating-point number, the infinities and the number that is none included. -/
inductive Real where
  | finite (x : Binary64)
  | infinite (negative : Bool)
  | nan
  deriving DecidableEq, Repr

/-- How a table came to be: as a value between braces; under a header of its own; on the way to a
header further down; or by dotted keys. -/
inductive TableKind where
  | inline
  | header
  | passed
  | dotted
  deriving DecidableEq, Repr

inductive Value where
  | string (s : String)
  | integer (i : Int)
  | real (x : Real)
  | boolean (b : Bool)
  | datetime (text : String)
  | array (items : List Value)
  | tables (items : List Value)
  | table (kind : TableKind) (entries : List (String × Value))
  deriving Repr

/-- The text of a floating-point number, always positional. -/
def Real.text : Real → String
  | .finite x       => String.ofList (Decimal.Style.positional.write x)
  | .infinite false => "inf"
  | .infinite true  => "-inf"
  | .nan            => "NaN"

/-- The word for the type of a value. -/
def Value.typeName : Value → String
  | .string _   => "string"
  | .integer _  => "integer"
  | .real _     => "float"
  | .boolean _  => "boolean"
  | .datetime _ => "datetime"
  | .array _    => "array"
  | .tables _   => "array of tables"
  | .table _ _  => "table"

end NativeMessaging.Toml
