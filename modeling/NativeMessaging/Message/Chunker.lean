import NativeMessaging.Frame.Error
import NativeMessaging.Message.Envelope

/-!
# Message — Chunker

Cuts a text into the chunks that carry it.  Cuts fall between characters: a fragment takes as many
characters as the limit allows, and a character wider than the limit goes alone.
-/

namespace NativeMessaging

/-- The bytes of text that a chunk may carry at most. -/
structure Chunker where
  limit : Nat
  limit_pos : 0 < limit := by decide
  deriving DecidableEq, Repr

namespace Chunker

/-- The largest limit that a configuration may set, in bytes. -/
def maxLimit : Nat := 768 * 1024

/-- A chunker with that limit; no limit is below one byte. -/
def ofLimit (n : Nat) : Chunker := ⟨max n 1, by omega⟩

/-- The chunker with the largest limit. -/
def largest : Chunker := ofLimit maxLimit

/-- Cuts characters into fragments of at most `limit` bytes, or of one character: `fragment` is the
one under way and `size` its bytes, `done` the ones before it, both with the last one first. -/
def cut (limit : Nat) :
    (done : List String) → (fragment : List Char) → (size : Nat) → List Char → List String
  | done, fragment, _,    []      => (String.ofList fragment.reverse :: done).reverse
  | done, fragment, size, c :: cs =>
    if fragment ≠ [] ∧ limit < size + c.utf8Size then
      cut limit (String.ofList fragment.reverse :: done) [c] c.utf8Size cs
    else cut limit done (c :: fragment) (size + c.utf8Size) cs

/-- The fragments of a text; an empty text has one, which is empty. -/
def split (chunker : Chunker) (payload : String) : List String :=
  cut chunker.limit [] [] 0 payload.toList

/-- The chunks of a text, in order; there are no more of them than a sequence number can count. -/
def chunks (chunker : Chunker) (colony : ColonyId) (id : MessageId) (direction : Direction)
    (payload : String) : Except Frame.Error (List Chunk) :=
  let fragments := chunker.split payload
  let count := fragments.length
  if count < UInt32.size then
    .ok (fragments.mapIdx fun i fragment =>
      ⟨id, colony, direction, UInt32.ofNat count, UInt32.ofNat (i + 1), fragment⟩)
  else .error (.tooManyChunks count)

/-- The texts of the chunks of a text. -/
def encode (chunker : Chunker) (colony : ColonyId) (id : MessageId) (direction : Direction)
    (payload : String) : Except Frame.Error (List String) := do
  .ok ((← chunker.chunks colony id direction payload).map Chunk.document)

end Chunker

end NativeMessaging
