import NativeMessaging.Host.Sink
import NativeMessaging.Message.Ack
import NativeMessaging.Message.Chunker

/-!
# Host — Outbound

Everything the host sends.  A text goes out as the frames of its chunks, one behind the other with
nothing between them; an ack is one frame.
-/

namespace NativeMessaging.Host

structure Outbound where
  sink : Sink
  chunker : Chunker
  deriving DecidableEq, Repr

namespace Outbound

/-- Writes texts as frames. -/
def write (outbound : Outbound) (texts : List String) : Written Frame.Error × Outbound :=
  let (result, sink) := outbound.sink.writeFrames texts
  (result, { outbound with sink := sink })

/-- Sends a text in chunks. -/
def send (outbound : Outbound) (colony : ColonyId) (id : MessageId) (direction : Direction)
    (payload : String) : Written Frame.Error × Outbound :=
  match outbound.chunker.encode colony id direction payload with
  | .error e   => (.ok (.error e), outbound)
  | .ok texts => outbound.write texts

/-- Sends an ack. -/
def sendAck (outbound : Outbound) (ack : Ack) : Written Frame.Error × Outbound :=
  outbound.write [ack.print]

end Outbound

end NativeMessaging.Host
