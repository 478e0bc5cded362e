import NativeMessaging.Json.Value

/-!
# Message — Address

Who a message is for and which call it belongs to.  A colony is a live plugin instance, colony zero
being the host itself; a message id ties a command to its response; the direction says which half of
a call a text is.
-/

namespace NativeMessaging

/-- A live plugin instance. -/
structure ColonyId where
  val : UInt32
  deriving DecidableEq, Repr

/-- The colony that is the host itself. -/
def ColonyId.topLevel : ColonyId := ⟨0⟩

/-- A call, by the number its sender gave it. -/
structure MessageId where
  val : UInt32
  deriving DecidableEq, Repr

/-- Which half of a call a text is. -/
inductive Direction where
  | command
  | response
  deriving DecidableEq, Repr

/-- The word for a direction inside a chunk document. -/
def Direction.word : Direction → String
  | .command  => "cmd"
  | .response => "resp"

namespace Json

/-- A number of 32 bits as a value. -/
def ofUInt32 (n : UInt32) : Json := .number (.natural n.toNat)

/-- The number of 32 bits that a value is, whether it was written with a fraction or not. -/
def uint32? (v : Json) : Option UInt32 := do
  let n ← v.natural?
  if n < UInt32.size then some (UInt32.ofNat n) else none

end Json

end NativeMessaging
