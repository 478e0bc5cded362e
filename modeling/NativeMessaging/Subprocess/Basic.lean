import NativeMessaging.Files.OsError

/-!
# Subprocess — Basic

A process, seen from the ends of its input and its output.  What a program does is a function of the
input that it has been given so far, so that a process is a program with some input.
-/

namespace NativeMessaging

/-- What a program has done with the input it has been given: what it wrote, and whether it still
holds its input and its output. -/
structure Behaviour where
  output : List UInt8
  holdsInput : Bool
  holdsOutput : Bool
  deriving DecidableEq, Repr

/-- What a program does with some input, given whether that is all of it. -/
abbrev Program := (given : List UInt8) → (ended : Bool) → Behaviour

structure Subprocess where
  program : Program
  given : List UInt8
  ended : Bool
  killed : Bool

namespace Subprocess

/-- A program that starts. -/
def start (program : Program) : Subprocess := ⟨program, [], false, false⟩

/-- What a process has done so far; one that was killed holds nothing. -/
def behaviour (p : Subprocess) : Behaviour :=
  let b := p.program p.given p.ended
  if p.killed then ⟨b.output, false, false⟩ else b

/-- Gives a process more input. -/
def give (p : Subprocess) (bytes : List UInt8) : Except Files.OsError Subprocess :=
  if p.behaviour.holdsInput then .ok { p with given := p.given ++ bytes } else .error .brokenPipe

/-- Kills a process. -/
def kill (p : Subprocess) : Subprocess := { p with killed := true }

end Subprocess

end NativeMessaging
