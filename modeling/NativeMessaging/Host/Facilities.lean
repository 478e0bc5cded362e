import NativeMessaging.Frame.Reader
import NativeMessaging.Host.Outbound
import NativeMessaging.Message.Reassembly

/-!
# Host — Facilities

What the host offers in a turn: frames come in, texts and acks go out, and calls are scheduled until
the loop has been asked to stop.
-/

namespace NativeMessaging.Host

/-- Why the host refuses what a plugin asks for. -/
inductive HostError where
  | write (cause : Frame.Error)
  | loopClosed
  deriving DecidableEq, Repr

def HostError.message : HostError → String
  | .write cause => s!"failed to write to the browser: {cause.message}"
  | .loopClosed  => "the dispatch loop has shut down"

/-- The messages that are still arriving, the way out, and what the plugins themselves work on. -/
structure Facilities (σ : Type) where
  table : Reassembler
  outbound : Outbound
  own : σ

namespace Facilities

variable {κ σ : Type}

/-- What a frame makes of the messages that are still arriving: the message it completes, asks for
or is rejected with, if any. -/
def receive (table : Reassembler) (raw : String) : Option Message × Reassembler :=
  match Envelope.parse raw with
  | .ok (.create mimetype) => (some (.create mimetype), table)
  | .error r               => (some (.error r.message), table)
  | .ok (.chunk chunk)     =>
    match table.accept chunk with
    | (.ok m, table)    => (m, table)
    | (.error r, table) => (some (.error r.message), table)

/-- Takes the text of a frame and posts what it makes. -/
def messageIn (raw : String) : Turn κ (Facilities σ) Unit := do
  let message ← Turn.step fun f =>
    let (message, table) := receive f.table raw
    (.ok message, { f with table := table })
  match message with
  | some m => Turn.post m
  | none   => pure ()

/-- How many messages are still arriving. -/
def pendingChunks : Turn κ (Facilities σ) Nat := do return (← Turn.world).table.size

/-- Writes with the way out. -/
def writing (f : Outbound → Written Frame.Error × Outbound) :
    Turn κ (Facilities σ) (Except Frame.Error Unit) :=
  Turn.step fun facilities =>
    let (result, outbound) := f facilities.outbound
    (result, { facilities with outbound := outbound })

/-- Sends a text in chunks. -/
def send (direction : Direction) (colony : ColonyId) (id : MessageId) (payload : String) :
    Turn κ (Facilities σ) (Except Frame.Error Unit) :=
  writing (·.send colony id direction payload)

/-- Sends an ack. -/
def sendAck (ack : Ack) : Turn κ (Facilities σ) (Except Frame.Error Unit) :=
  writing (·.sendAck ack)

/-- Sends a text for a plugin. -/
def sendFor (direction : Direction) (colony : ColonyId) (id : MessageId) (payload : String) :
    Turn κ (Facilities σ) (Except HostError Unit) := do
  return (← send direction colony id payload).mapError .write

/-- Schedules a call for a plugin. -/
def scheduleFor (call : κ) : Turn κ (Facilities σ) (Except HostError Unit) := do
  if ← Turn.exitRequested then return .error .loopClosed
  else
    Turn.schedule call
    return .ok ()

/-- Takes frames until the source ends or fails, and counts them.  A source of `n` bytes has fewer
than `n + 1` frames. -/
def takeFrames (limit : Nat) :
    (rounds : Nat) → (taken : Nat) → Frame.Source → Turn κ (Facilities σ) Nat
  | 0,          taken, _      => pure taken
  | rounds + 1, taken, source =>
    match source.readFrame limit with
    | (.ok (some raw), source) => do
      messageIn raw
      takeFrames limit rounds (taken + 1) source
    | _ => pure taken

/-- Takes every frame of a source and then asks the loop to stop. -/
def pump (limit : Nat) (source : Frame.Source) : Turn κ (Facilities σ) Nat := do
  let taken ← takeFrames limit (source.bytes.length + 1) 0 source
  Turn.requestExit
  return taken

end Facilities

end NativeMessaging.Host
