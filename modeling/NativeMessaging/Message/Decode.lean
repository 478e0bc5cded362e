import NativeMessaging.Json.Decoder
import NativeMessaging.Message.Ack
import NativeMessaging.Message.Address

/-!
# Message — Decode

Reads acks, ids and directions from their JSON texts.
-/

namespace NativeMessaging

open Shape (Mismatch)

namespace Direction

def choices : List (String × Direction) := [("cmd", .command), ("resp", .response)]

/-- The direction that a text spells. -/
def decode (s : String) : Except Json.Error Direction :=
  Json.readAll (fun _ => Json.Decoder.choice choices) s

/-- The text of a direction. -/
def print (d : Direction) : String := (Json.string d.word).print

end Direction

/-- The colony that a text spells. -/
def ColonyId.decode (s : String) : Except Json.Error ColonyId :=
  (Json.readAll (fun _ => Json.Decoder.uint32) s).map ColonyId.mk

/-- The text of a colony. -/
def ColonyId.print (c : ColonyId) : String := (Json.ofUInt32 c.val).print

/-- The message id that a text spells. -/
def MessageId.decode (s : String) : Except Json.Error MessageId :=
  (Json.readAll (fun _ => Json.Decoder.uint32) s).map MessageId.mk

/-- The text of a message id. -/
def MessageId.print (i : MessageId) : String := (Json.ofUInt32 i.val).print

namespace Ack

open Json (Reader Fault)
open Json.Decoder (mismatch pastBrace pastBracket element?)

def Status.choices : List (String × Status) := [("success", .success), ("error", .error)]

/-- The fields of an ack that have been read; a field that was `null` has been read. -/
structure Draft where
  status : Option Status
  plugin : Option (Option String)
  message : Option (Option String)
  deriving DecidableEq, Repr

/-- Nothing read yet. -/
def Draft.empty : Draft := ⟨none, none, none⟩

/-- The ack of the fields that have been read. -/
def Draft.finish (draft : Draft) : Except Mismatch Ack :=
  match draft.status with
  | some status => .ok ⟨status, draft.plugin.getD none, draft.message.getD none⟩
  | none        => .error (.missingField "status")

/-- A text or `null`. -/
def readText : Reader (Option String) := Json.Decoder.optional (Json.Decoder.string "a string")

/-- Reads the value of a field into a draft; other names do not matter. -/
def Draft.readField (rounds : Nat) (draft : Draft) (name : String) (cs : List Char) :
    Except Fault (Draft × List Char) :=
  let once {α : Type} (known : Option α) (reader : Reader α) (set : α → Draft) :
      Except Fault (Draft × List Char) :=
    match known with
    | some _ => mismatch (.duplicateField name) (pastBrace cs)
    | none   => do
      let (v, cs) ← reader (← Json.colon cs)
      .ok (set v, cs)
  if name = "status" then
    once draft.status (Json.Decoder.choice Status.choices) fun v => { draft with status := some v }
  else if name = "plugin" then
    once draft.plugin readText fun v => { draft with plugin := some v }
  else if name = "message" then
    once draft.message readText fun v => { draft with message := some v }
  else do .ok (draft, ← Json.Skip.value rounds (← Json.colon cs))

/-- Reads the members of an ack. -/
def readMembers (size : Nat) :
    (rounds : Nat) → (more : Bool) → (draft : Draft) → Reader Ack
  | 0,          _,    _,     cs => Json.failAt .eofInObject cs
  | rounds + 1, more, draft, cs => do
    match ← Json.memberStart more cs with
    | .close cs =>
      match draft.finish with
      | .ok ack  => .ok (ack, cs)
      | .error m => mismatch m cs
    | .name cs  =>
      let (name, cs) ← Json.Token.stringBody [] 0 cs
      let (draft, cs) ← draft.readField size name cs
      readMembers size rounds true draft cs

/-- Reads the elements of an ack: its fields in order, of which only the first has to be there. -/
def readItems (cs : List Char) : Except Fault (Ack × List Char) := do
  match ← element? (Json.Decoder.choice Status.choices) false cs with
  | (none, cs)        => mismatch (.invalidLength 0 "struct Ack with 3 elements") (pastBracket cs)
  | (some status, cs) =>
    let (plugin, cs) ← element? readText true cs
    let (message, cs) ← element? readText true cs
    .ok (⟨status, plugin.getD none, message.getD none⟩, ← Json.Decoder.closeBracket cs)

/-- Reads an ack. -/
def read (rounds : Nat) : Reader Ack := fun cs =>
  match Json.Token.skipSpace cs with
  | '{' :: cs => readMembers rounds rounds false .empty cs
  | '[' :: cs => readItems cs
  | cs        => Json.Decoder.invalidType "struct Ack" cs

/-- The ack that a text spells. -/
def decode (s : String) : Except Json.Error Ack := Json.readAll read s

end Ack

end NativeMessaging
