import NativeMessaging.Shape.Record
import NativeMessaging.Toml.Value

/-!
# Toml — Shape

Reads values of a known type from the values of a TOML document.
-/

namespace NativeMessaging.Toml

open Shape (Found Mismatch)

/-- The name under which the text of a date or time appears where a table is expected. -/
def datetimeName : String := "$__toml_private_datetime"

/-- A value as something found. -/
def Value.found : Value → Found
  | .string s   => .string s
  | .integer i  => .integer i
  | .real x     => .real x.text
  | .boolean b  => .boolean b
  | .datetime _ => .map
  | .array _    => .sequence
  | .tables _   => .sequence
  | .table _ _  => .map

/-- The entries of a table. -/
def Value.entries? : Value → Option (List (String × Value))
  | .table _ es    => some es
  | .datetime text => some [(datetimeName, .string text)]
  | _              => none

/-- The elements of an array. -/
def Value.items? : Value → Option (List Value)
  | .array vs  => some vs
  | .tables vs => some vs
  | _          => none

namespace Read

/-- A number from zero up to below a limit. -/
def unsigned (limit : Nat) (expected : String) : Value → Except Mismatch Nat
  | .integer i =>
    if 0 ≤ i ∧ i.toNat < limit then .ok i.toNat else .error (.invalidValue (.integer i) expected)
  | v          => .error (.invalidType v.found expected)

/-- A string. -/
def string (expected : String) : Value → Except Mismatch String
  | .string s => .ok s
  | v         => .error (.invalidType v.found expected)

/-- A truth value. -/
def boolean : Value → Except Mismatch Bool
  | .boolean b => .ok b
  | v          => .error (.invalidType v.found "a boolean")

/-- The elements of an array, each read in the same way. -/
def list {α : Type} (element : Value → Except Mismatch α) (v : Value) :
    Except Mismatch (List α) :=
  match v.items? with
  | some items => items.mapM element
  | none       => .error (.invalidType v.found "a sequence")

/-- The entries of a table, the values each read in the same way. -/
def map {α : Type} (value : Value → Except Mismatch α) (v : Value) :
    Except Mismatch (List (String × α)) :=
  match v.entries? with
  | some entries => entries.mapM fun (name, v) => do .ok (name, ← value v)
  | none         => .error (.invalidType v.found "a map")

/-- The fields of a record. -/
def content (expected : String) (v : Value) : Except Mismatch (Shape.Content Value) :=
  match v.entries?, v.items? with
  | some entries, _          => .ok (.members entries)
  | none,         some items => .ok (.items items)
  | none,         none       => .error (.invalidType v.found expected)

/-- What stands behind the name of a choice has to be empty. -/
def nothing : Value → Except Mismatch Unit
  | .tables vs  => if vs.isEmpty then .ok () else .error (.choiceNotEmpty "array")
  | .array vs   => if vs.isEmpty then .ok () else .error (.choiceNotEmpty "table")
  | .table _ es => if es.isEmpty then .ok () else .error (.choiceNotEmpty "table")
  | v           => .error (.choiceNoTable v.typeName)

/-- One of the named choices. -/
def choiceName {α : Type} (choices : List (String × α)) (name : String) : Except Mismatch α :=
  match choices.lookup name with
  | some a => .ok a
  | none   => .error (.unknownChoice name (choices.map Prod.fst))

/-- One of the named choices, as a string or as a table with nothing but the name. -/
def choice {α : Type} (choices : List (String × α)) : Value → Except Mismatch α
  | .string name          => choiceName choices name
  | .table _ []           => .error (.noSingleChoice false)
  | .table _ [(name, v)]  => do
    let a ← choiceName choices name
    nothing v
    .ok a
  | .table _ (_ :: _ :: _) => .error (.noSingleChoice true)
  | _                     => .error .noChoice

end Read

end NativeMessaging.Toml
