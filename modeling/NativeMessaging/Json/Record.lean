import NativeMessaging.Json.Decoder
import NativeMessaging.Shape.Record

/-!
# Json — Record

Records of which a field says what kind of record it is.  The kind may come after the other fields,
so these are kept as values and read once the kind is known; a mismatch in them has no place in the
text.
-/

namespace NativeMessaging.Json

open Shape (Mismatch)

/-- The fields of a record besides its kind. -/
abbrev Content := Shape.Content Json

/-- A field of a record. -/
abbrev Field := Shape.Field Json

/-! ### Fields -/

/-- A number of 32 bits. -/
def readUInt32 : Json → Except Mismatch UInt32
  | .number (.natural n)  =>
    if n < UInt32.size then .ok (UInt32.ofNat n) else .error (.invalidValue (.integer n) "u32")
  | .number (.negative n) => .error (.invalidValue (.integer (-n)) "u32")
  | v                     => .error (.invalidType v.found "u32")

/-- A string. -/
def readString : Json → Except Mismatch String
  | .string s => .ok s
  | v         => .error (.invalidType v.found "a string")

/-! ### The kind and the rest -/

/-- The name of the field that says the kind. -/
def kindField : String := "type"

/-- Fails with a mismatch of the record, behind its closing bracket if that comes next. -/
def mismatchBehind {α : Type} (past : List Char → List Char) (m : Mismatch) (cs : List Char) :
    Except Fault α :=
  Decoder.mismatch m (past cs)

/-- Reads the members of a record, with the kind among them. -/
def readKindMembers {α : Type} (kind : Reader α) (element : Reader Json) :
    (rounds : Nat) → (known : Option α) → (acc : List (String × Json)) → (more : Bool) →
      Reader (α × Content)
  | 0,          _,     _,   _,    cs => failAt .eofInObject cs
  | rounds + 1, known, acc, more, cs => do
    match ← memberStart more cs with
    | .close cs =>
      match known with
      | some k => .ok ((k, .members acc.reverse), cs)
      | none   => Decoder.mismatch (.missingField kindField) cs
    | .name cs  =>
      let (name, cs) ← Token.stringBody [] 0 cs
      if name = kindField then
        match known with
        | some _ => mismatchBehind Decoder.pastBrace (.duplicateField kindField) cs
        | none   =>
          let (k, cs) ← kind (← colon cs)
          readKindMembers kind element rounds (some k) acc true cs
      else
        let (v, cs) ← element (← colon cs)
        readKindMembers kind element rounds known ((name, v) :: acc) true cs

/-- Reads the elements of a record, the kind first. -/
def readKindItems {α : Type} (kind : Reader α) (element : Reader Json) (rounds : Nat)
    (cs : List Char) : Except Fault ((α × Content) × List Char) := do
  match ← Decoder.element? kind false cs with
  | (none, cs)   => mismatchBehind Decoder.pastBracket (.missingField kindField) cs
  | (some k, cs) =>
    let (items, cs) ← readItems element rounds true [] cs
    .ok ((k, .items items), cs)

/-- Reads a record of the type `label`: its kind and its other fields. -/
def readKind {α : Type} (label : String) (kind : Reader α) (rounds : Nat) (cs : List Char) :
    Except Fault ((α × Content) × List Char) :=
  let element := readValue rounds (maxDepth - 1)
  match Token.skipSpace cs with
  | '{' :: cs => readKindMembers kind element rounds none [] false cs
  | '[' :: cs => readKindItems kind element rounds cs
  | cs        => Decoder.invalidType ("internally tagged enum " ++ label) cs

/-! ### Reading a whole text -/

/-- Reads a whole text as a record whose kind decides how its other fields are read; what is wrong
with those counts before what stands behind the record. -/
def decodeKind {κ α : Type} (label : String) (kind : Reader κ)
    (record : κ → Content → Except Mismatch α) (s : String) : Except Error α :=
  let text := s.toList
  match readKind label kind (text.length + 1) text with
  | .error fault             => .error (fault.locate text)
  | .ok ((k, content), rest) =>
    match record k content with
    | .error m => .error ⟨.shape m, none⟩
    | .ok v    => ((finish rest).map fun _ => v).mapError (·.locate text)

end NativeMessaging.Json
