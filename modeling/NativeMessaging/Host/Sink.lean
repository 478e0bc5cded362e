import NativeMessaging.Frame.Basic
import NativeMessaging.Host.Turn

/-!
# Host — Sink

Where the host's bytes go.  A sink may take the bytes of a call in pieces, be interrupted, fill up,
fail or panic; `writeAll` repeats calls until every byte is taken or a call fails.
-/

namespace NativeMessaging.Host

/-- How a sink answers one call: in its steady way, by taking at most that many bytes, or not at
all. -/
inductive WriteReply where
  | steady
  | upTo (n : Nat)
  | interrupted
  | failed (reason : String)
  | panics
  deriving DecidableEq, Repr

/-- A sink: how the next calls are answered; its steady way, which is to take at most `perCall` bytes
a call and `room` bytes in all, and then to fail for the reason `whenFull` or to take nothing; how it
refuses to be flushed, if it does; the bytes it took, the last one first; and how it refuses the next
flushes, before it goes on with its own `refusal`. -/
structure Sink where
  plan : List WriteReply
  perCall : Option Nat
  room : Option Nat
  whenFull : Option String
  refusal : Option String
  written : List UInt8
  flushPlan : List (Option String) := []
  deriving DecidableEq, Repr

/-- What became of some writing: done, failed for a reason, or never returned. -/
abbrev Written (ε : Type) := Except Panic (Except ε Unit)

namespace Sink

/-- A sink that takes everything. -/
def unlimited : Sink := ⟨[], none, none, none, none, [], []⟩

/-- How many bytes of `size` the sink takes in its steady way, or why none. -/
def steadily (sink : Sink) (size : Nat) : Except String Nat :=
  let fitting := match sink.perCall with
    | some n => min n size
    | none   => size
  match sink.room with
  | none   => .ok fitting
  | some 0 =>
    match sink.whenFull with
    | some reason => .error reason
    | none        => .ok 0
  | some r => .ok (min r fitting)

/-- The answer to a call with `size` bytes. -/
def reply (sink : Sink) (size : Nat) : WriteReply :=
  match sink.plan.head? with
  | none | some .steady =>
    match sink.steadily size with
    | .ok n         => .upTo n
    | .error reason => .failed reason
  | some planned => planned

/-- The sink after a call that took those bytes. -/
def taking (sink : Sink) (bytes : List UInt8) : Sink :=
  { sink with
    plan := sink.plan.tail
    room := sink.room.map (· - bytes.length)
    written := bytes.reverse ++ sink.written }

/-- The reason for which writing stops when a call takes nothing. -/
def nothingTaken : String := "failed to write whole buffer"

/-- Writes bytes, calling until all are taken; every round ends an entry of the plan or takes a
byte. -/
def writeRounds : (rounds : Nat) → Sink → List UInt8 → Written String × Sink
  | _,          sink, []      => (.ok (.ok ()), sink)
  | 0,          sink, _ :: _  => (.ok (.error nothingTaken), sink)
  | rounds + 1, sink, b :: bs =>
    match sink.reply (b :: bs).length with
    | .interrupted   => writeRounds rounds (sink.taking []) (b :: bs)
    | .failed reason => (.ok (.error reason), sink.taking [])
    | .panics        => (.error .panic, sink.taking [])
    | .steady        => (.ok (.error nothingTaken), sink.taking [])
    | .upTo 0        => (.ok (.error nothingTaken), sink.taking [])
    | .upTo (n + 1)  =>
      writeRounds rounds (sink.taking ((b :: bs).take (n + 1))) ((b :: bs).drop (n + 1))

/-- Writes bytes, all of them or up to the failure. -/
def writeAll (sink : Sink) (bytes : List UInt8) : Written String × Sink :=
  writeRounds (sink.plan.length + bytes.length) sink bytes

/-- Makes sure that what was written goes on its way. -/
def flush (sink : Sink) : Except String Unit × Sink :=
  let answer := match sink.flushPlan.head?.getD sink.refusal with
    | some reason => .error reason
    | none        => .ok ()
  (answer, { sink with flushPlan := sink.flushPlan.tail })

/-- Writes texts as frames, one behind the other, and flushes. -/
def writeFrames : Sink → List String → Written Frame.Error × Sink
  | sink, []      =>
    let (result, sink) := sink.flush
    (.ok (result.mapError .io), sink)
  | sink, t :: ts =>
    match Frame.encode t with
    | .error e  => (.ok (.error e), sink)
    | .ok frame =>
      match sink.writeAll frame with
      | (.ok (.ok ()), sink)         => writeFrames sink ts
      | (.ok (.error reason), sink) => (.ok (.error (.io reason)), sink)
      | (.error p, sink)            => (.error p, sink)

/-- The bytes that the sink took, in order, and the sink without them. -/
def drain (sink : Sink) : List UInt8 × Sink := (sink.written.reverse, { sink with written := [] })

end Sink

end NativeMessaging.Host
