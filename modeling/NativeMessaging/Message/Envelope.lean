import NativeMessaging.Json.Printer
import NativeMessaging.Json.Reader
import NativeMessaging.Message.Basic

/-!
# Message — Envelope

The text of one frame: a JSON object that either asks for a plugin or carries one chunk of a longer
text.  `Envelope.parse` reads it, or says why it cannot become a message; `Chunk.document` writes a
chunk.
-/

namespace NativeMessaging

/-- One fragment of a text that was cut into `count` pieces, at place `sequence` from one on. -/
structure Chunk where
  id : MessageId
  colony : ColonyId
  direction : Direction
  count : UInt32
  sequence : UInt32
  fragment : String
  deriving DecidableEq, Repr

/-- What one frame says. -/
inductive Envelope where
  | create (mimetype : String)
  | chunk (chunk : Chunk)
  deriving DecidableEq, Repr

/-- Why a frame or a chunk cannot become a message. -/
inductive Rejection where
  | malformed (reason : String)
  | missingField (name : String)
  | missingSequenceId
  | sequenceSizeMismatch (id : MessageId) (declared found : UInt32)
  | unknownMessage (reason : String)
  | invalidChunkCount
  | sequenceOutOfRange (sequence count : UInt32)
  deriving DecidableEq, Repr

/-- The wording of a rejection, which the other side gets to see. -/
def Rejection.message : Rejection → String
  | .malformed reason                       => s!"invalid message: {reason}"
  | .missingField name                      => s!"missing field {Shape.ticked name}"
  | .missingSequenceId                      => "missing sequence id in multi-part message"
  | .sequenceSizeMismatch id declared found =>
    s!"invalid sequence size for message {id.val.toNat}: already declared {declared.toNat}, got {found.toNat}"
  | .unknownMessage reason                  => s!"unknown message: {reason}"
  | .invalidChunkCount                      => "chunk count must be at least 1"
  | .sequenceOutOfRange sequence count      =>
    s!"sequence id {sequence.toNat} outside 1..={count.toNat}"

namespace Envelope

/-- The field of a chunk that has to be a number of 32 bits where it is present. -/
def number? (root : Json) (name : String) : Except Rejection (Option UInt32) :=
  match root.get? name with
  | none   => .ok none
  | some v =>
    match v.uint32? with
    | some n => .ok (some n)
    | none   => .error (.malformed s!"{Shape.ticked name} must be an unsigned integer")

/-- The field of a chunk that has to be there and to be a number of 32 bits. -/
def number (root : Json) (name : String) : Except Rejection UInt32 := do
  match ← number? root name with
  | some n => .ok n
  | none   => .error (.malformed s!"{Shape.ticked name} must be an unsigned integer")

/-- The place of a chunk among `count` chunks; a chunk that is alone has the first place, whatever
it says. -/
def sequence (root : Json) (count : UInt32) : Except Rejection UInt32 := do
  if 1 < count then
    match ← number? root "n" with
    | none   => .error .missingSequenceId
    | some n => if n = 0 ∨ count < n then .error (.sequenceOutOfRange n count) else .ok n
  else .ok 1

/-- Only the word for a response makes a chunk part of one. -/
def direction (root : Json) : Direction :=
  if root.get? "type" |>.bind Json.string? |>.any (· == Direction.response.word) then .response
  else .command

/-- The chunk that an object carries. -/
def chunkOf (root : Json) : Except Rejection Chunk := do
  let count ← number root "c"
  let id ← number root "cmdId"
  let colony ← number? root "colonyId"
  if count = 0 then .error .invalidChunkCount
  else
    let sequence ← sequence root count
    match root.get? "msg" |>.bind Json.string? with
    | none => .error (.malformed "`msg` must be a string")
    | some fragment =>
      let colony := (colony.map ColonyId.mk).getD .topLevel
      .ok ⟨⟨id⟩, colony, direction root, count, sequence, fragment⟩

/-- What an object with a command asks for. -/
def controlOf (root : Json) (command : Json) : Except Rejection Envelope :=
  match command.string? with
  | some "create" =>
    match root.get? "mimetype" with
    | none            => .error (.missingField "mimetype")
    | some (.string m) => .ok (.create m)
    | some _          => .error (.malformed "`mimetype` must be a string")
  | some other => .error (.unknownMessage s!"unknown command {Shape.ticked other}")
  | none       => .error (.unknownMessage s!"unknown command {command.canonical.print}")

/-- What a JSON value says. -/
def ofJson : Json → Except Rejection Envelope
  | .object ms =>
    let root := Json.object ms
    match root.get? "cmd", root.get? "msg" with
    | some command, _      => controlOf root command
    | none,         some _ => .chunk <$> chunkOf root
    | none,         none   => .error (.unknownMessage "expected a `cmd` or `msg` field")
  | _ => .error (.malformed "envelope is not an object")

/-- What the text of a frame says. -/
def parse (raw : String) : Except Rejection Envelope :=
  match Json.parse raw with
  | .error e => .error (.malformed s!"invalid json: {e.message}")
  | .ok v    => ofJson v

end Envelope

/-- A chunk as a JSON object. -/
def Chunk.toJson (chunk : Chunk) : Json :=
  .object [
    ("c",        .ofUInt32 chunk.count),
    ("type",     .string chunk.direction.word),
    ("colonyId", .ofUInt32 chunk.colony.val),
    ("cmdId",    .ofUInt32 chunk.id.val),
    ("n",        .ofUInt32 chunk.sequence),
    ("msg",      .string chunk.fragment)]

/-- The text of a chunk. -/
def Chunk.document (chunk : Chunk) : String := chunk.toJson.print

end NativeMessaging
