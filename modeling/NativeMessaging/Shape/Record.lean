import NativeMessaging.Shape.Mismatch

/-!
# Shape — Record

Records read from values of a data format.  A record is written with its fields by name or as the
sequence of their values; the first thing that is wrong, in the order of the text, is the one that
counts, and only then what is missing.
-/

namespace NativeMessaging.Shape

variable {ν α : Type}

/-- A field of a record: its name, the reader of its value, and what it is where it is absent. -/
structure Field (ν α : Type) where
  name : String
  read : ν → Except Mismatch α
  absent : Option α

/-- The fields of a record as they are written: by name, or in order. -/
inductive Content (ν : Type) where
  | members (members : List (String × ν))
  | items (items : List ν)

namespace Field

/-- A field with the value left out. -/
def shape (field : Field ν α) : Field ν Unit :=
  ⟨field.name, fun v => (field.read v).map fun _ => (), field.absent.map fun _ => ()⟩

/-- The value of a field among members. -/
def ofMembers (field : Field ν α) (members : List (String × ν)) : Except Mismatch α :=
  match members.lookup field.name, field.absent with
  | some v, _      => field.read v
  | none,   some a => .ok a
  | none,   none   => .error (.missingField field.name)

/-- The value of the field at place `i` of a sequence; `label` says what the sequence should be. -/
def ofItems (field : Field ν α) (label : String) (i : Nat) (items : List ν) :
    Except Mismatch α :=
  match items[i]?, field.absent with
  | some v, _      => field.read v
  | none,   some a => .ok a
  | none,   none   => .error (.invalidLength i label)

end Field

/-- The first fault among members: a repeated field or one whose value is not of its type.  Members
of other names do not matter. -/
def checkMembers (fields : List (Field ν Unit)) (seen : List String) :
    List (String × ν) → Except Mismatch Unit
  | []           => .ok ()
  | (n, v) :: ms =>
    match fields.find? (·.name == n) with
    | none       => checkMembers fields seen ms
    | some field =>
      if n ∈ seen then .error (.duplicateField n)
      else do
        field.read v
        checkMembers fields (n :: seen) ms

/-- A sequence may not be longer than the record. -/
def checkLength (size : Nat) (items : List ν) : Except Mismatch Unit :=
  if items.length ≤ size then .ok ()
  else .error (.invalidLength items.length (elements size ++ " in sequence"))

end NativeMessaging.Shape
