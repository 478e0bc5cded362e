import NativeMessaging.Frame.Basic

/-!
# Frame — Reader

Reads frames from a source that may deliver its bytes in pieces, be interrupted, end early or fail.
An interrupted call is repeated; a frame's text is given once all of its bytes are there.
-/

namespace NativeMessaging.Frame

/-- How a source answers one call: with at most that many bytes, with an interruption, or with a
failure. -/
inductive Reply where
  | upTo (n : Nat)
  | interrupted
  | failed (reason : String)
  deriving DecidableEq, Repr

/-- The bytes still to come, and how the next calls are answered; after those a call gets every byte
it asks for. -/
structure Source where
  bytes : List UInt8
  plan : List Reply
  deriving DecidableEq, Repr

/-- Reads `wanted` bytes, calling until they are there or a call gives none.  `acc` holds those that
were read, the last one first. -/
def readFull (acc : List UInt8) :
    (plan : List Reply) → (bytes : List UInt8) → (wanted : Nat) →
      Except String (List UInt8) × Source
  | [],            bytes, wanted =>
    (.ok (acc.reverse ++ bytes.take wanted), ⟨bytes.drop wanted, []⟩)
  | reply :: plan, bytes, wanted =>
    if wanted = 0 then (.ok acc.reverse, ⟨bytes, reply :: plan⟩)
    else
      match reply with
      | .interrupted   => readFull acc plan bytes wanted
      | .failed reason => (.error reason, ⟨bytes, plan⟩)
      | .upTo n        =>
        let piece := bytes.take (min n wanted)
        if piece.isEmpty then (.ok acc.reverse, ⟨bytes, plan⟩)
        else
          readFull (piece.reverse ++ acc) plan (bytes.drop piece.length) (wanted - piece.length)

/-- Reads `wanted` bytes, or as many as come. -/
def Source.read (source : Source) (wanted : Nat) : Except String (List UInt8) × Source :=
  readFull [] source.plan source.bytes wanted

/-- Reads the next frame's text; none where the source ends between frames. -/
def Source.readFrame (limit : Nat) (source : Source) :
    Except Error (Option String) × Source :=
  match source.read headerSize with
  | (.error reason, source) => (.error (.io reason), source)
  | (.ok [], source)        => (.ok none, source)
  | (.ok head, source)      =>
    let length := ofHeader head
    if head.length < headerSize then (.error (.truncated head.length headerSize), source)
    else if limit < length then (.error (.tooLarge length limit), source)
    else
      match source.read length with
      | (.error reason, source) => (.error (.io reason), source)
      | (.ok bytes, source)     =>
        if bytes.length < length then (.error (.truncated bytes.length length), source)
        else
          match Text.Utf8.decode bytes with
          | .ok text     => (.ok (some text), source)
          | .error fault => (.error (.invalidUtf8 fault), source)

end NativeMessaging.Frame
