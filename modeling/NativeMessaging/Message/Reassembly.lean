import NativeMessaging.Message.Envelope

/-!
# Message — Reassembly

Joins chunks into messages.  Chunks of one message id may arrive in any order and more than once;
the message is complete when every place from one to the declared count has a fragment.
-/

namespace NativeMessaging

/-- A message whose chunks are still arriving: what its first chunk declared, and the fragments by
place, in ascending order of places. -/
structure PendingMessage where
  declared : UInt32
  colony : ColonyId
  direction : Direction
  fragments : List (UInt32 × String)
  deriving DecidableEq, Repr

namespace PendingMessage

/-- Puts a fragment at its place, instead of one that is there. -/
def insertFragment (place : UInt32) (fragment : String) :
    List (UInt32 × String) → List (UInt32 × String)
  | []           => [(place, fragment)]
  | (p, f) :: fs =>
    if place < p then (place, fragment) :: (p, f) :: fs
    else if place = p then (place, fragment) :: fs
    else (p, f) :: insertFragment place fragment fs

/-- The message with one more fragment. -/
def insert (pending : PendingMessage) (place : UInt32) (fragment : String) : PendingMessage :=
  { pending with fragments := insertFragment place fragment pending.fragments }

/-- Every place has its fragment. -/
def isComplete (pending : PendingMessage) : Bool :=
  pending.declared.toNat ≤ pending.fragments.length

/-- The fragments joined in order. -/
def payload (pending : PendingMessage) : String :=
  String.join (pending.fragments.map Prod.snd)

/-- The whole message. -/
def toMessage (pending : PendingMessage) (id : MessageId) : Message :=
  Message.ofCall pending.direction pending.colony id pending.payload

/-- A message of which nothing has arrived but the declaration of its first chunk. -/
def ofChunk (chunk : Chunk) : PendingMessage := ⟨chunk.count, chunk.colony, chunk.direction, []⟩

end PendingMessage

/-- The messages whose chunks are still arriving, by message id. -/
structure Reassembler where
  pending : List (MessageId × PendingMessage)
  deriving DecidableEq, Repr

namespace Reassembler

/-- Nothing is arriving. -/
def empty : Reassembler := ⟨[]⟩

/-- How many messages are still arriving. -/
def size (table : Reassembler) : Nat := table.pending.length

/-- What has arrived of a message. -/
def get? (table : Reassembler) (id : MessageId) : Option PendingMessage := table.pending.lookup id

/-- The table without a message. -/
def erase (table : Reassembler) (id : MessageId) : Reassembler :=
  ⟨table.pending.filter (fun entry => entry.1 != id)⟩

/-- The table with what has arrived of a message. -/
def insert (table : Reassembler) (id : MessageId) (pending : PendingMessage) : Reassembler :=
  ⟨(id, pending) :: (table.erase id).pending⟩

/-- Takes a chunk: gives the whole message when the chunk completes it, and forgets what has arrived
of a message when a chunk of it is rejected. -/
def accept (table : Reassembler) (chunk : Chunk) :
    Except Rejection (Option Message) × Reassembler :=
  if chunk.sequence = 0 ∨ chunk.count < chunk.sequence then
    (.error (.sequenceOutOfRange chunk.sequence chunk.count), table.erase chunk.id)
  else
    let known := (table.get? chunk.id).getD (.ofChunk chunk)
    if known.declared ≠ chunk.count then
      (.error (.sequenceSizeMismatch chunk.id known.declared chunk.count), table.erase chunk.id)
    else
      let pending := known.insert chunk.sequence chunk.fragment
      if pending.isComplete then (.ok (some (pending.toMessage chunk.id)), table.erase chunk.id)
      else (.ok none, table.insert chunk.id pending)

end Reassembler

end NativeMessaging
