import NativeMessaging.Files.Tree
import NativeMessaging.Shell.Script

/-!
# Shell — Machine

What a running script works on.  A script runs on the input that has arrived so far; where it needs
more it halts, and what it has written until then is all that it writes about that input.
-/

namespace NativeMessaging.Shell

/-- Where commands read from: the input of the script, other bytes, or nowhere. -/
inductive Inlet where
  | feed
  | bytes (left : List UInt8)
  | closed
  deriving DecidableEq, Repr

/-- Where commands write to: the output of the script, where nobody looks, or nowhere. -/
inductive Outlet where
  | output
  | unseen
  | closed
  deriving DecidableEq, Repr

/-- The state of a script: what is left of its input and whether more may come, what it wrote with the
last byte first, where its commands read and write, its variables and functions, its name and
arguments, the files, the status of the last command, whether the channels of the present command are to stay, whether the
script still holds its input and its output, and whether something it left running holds the output. -/
structure Machine where
  feed : List UInt8
  ended : Bool
  written : List UInt8
  inlet : Inlet
  outlet : Outlet
  environment : List (String × String)
  functions : List (String × Command)
  name : String
  arguments : List String
  files : Files.Tree
  status : Nat
  adopted : Bool
  holdsInput : Bool
  holdsOutput : Bool
  lingering : Bool

/-- Why a script does not go on where it is: it is over, a function or a loop is over, the next round of
a loop begins, it waits for input, or it sleeps. -/
inductive Halt where
  | exit (status : Nat)
  | returns (status : Nat)
  | leavesLoop
  | nextRound
  | waiting
  | asleep
  deriving DecidableEq, Repr

/-- The status of a part of a script that is over. -/
def Halt.status? : Halt → Option Nat
  | .exit status    => some status
  | .returns status => some status
  | .leavesLoop     => some 0
  | .nextRound      => some 0
  | .waiting        => none
  | .asleep         => none

/-- Something that a script does. -/
abbrev Act (α : Type) := ExceptT Halt (StateM Machine) α

namespace Act

/-- Runs an act. -/
def on {α : Type} (act : Act α) (machine : Machine) : Except Halt α × Machine :=
  StateT.run (ExceptT.run act) machine

def ofMachine {α : Type} (f : Machine → Except Halt α × Machine) : Act α :=
  ExceptT.mk fun machine => f machine

def machine : Act Machine := ofMachine fun machine => (.ok machine, machine)

def modify (f : Machine → Machine) : Act Unit := ofMachine fun machine => (.ok (), f machine)

def halt {α : Type} (reason : Halt) : Act α := ofMachine fun machine => (.error reason, machine)

/-- Writes bytes, and says whether that succeeded. -/
def write (bytes : List UInt8) : Act Nat := do
  match (← machine).outlet with
  | .output =>
    modify fun m => { m with written := bytes.reverse ++ m.written }
    return 0
  | .unseen => return 0
  | .closed => return 1

/-- The bytes that can be read, and whether there are no more to come; none where nothing can be
read. -/
def readable : Act (Option (List UInt8 × Bool)) := do
  let m ← machine
  match m.inlet with
  | .feed       => return if m.holdsInput then some (m.feed, m.ended) else none
  | .bytes left => return some (left, true)
  | .closed     => return none

/-- Leaves only those bytes to be read. -/
def leave (rest : List UInt8) : Act Unit :=
  modify fun m =>
    match m.inlet with
    | .feed => { m with feed := rest }
    | _     => { m with inlet := .bytes rest }

def assign (name value : String) : Act Unit :=
  modify fun m =>
    { m with environment := (name, value) :: m.environment.filter fun (n, _) => n != name }

/-- Runs an act on a machine of its own, which is the present one changed by `f`: what the act gave and
the machine it left.  The machine of the script stays as it is. -/
def apart {α : Type} (f : Machine → Machine) (act : Act α) : Act (Except Halt α × Machine) := do
  return act.on (f (← machine))

/-- Runs the body of a loop, and says whether the loop goes on. -/
def round (body : Act Nat) : Act Bool :=
  ofMachine fun m =>
    match body.on m with
    | (.ok _, m)              => (.ok true, m)
    | (.error .nextRound, m)  => (.ok true, m)
    | (.error .leavesLoop, m) => (.ok false, m)
    | (.error reason, m)      => (.error reason, m)

/-- Runs the body of a function, which has arguments of its own. -/
def call (arguments : List String) (body : Act Nat) : Act Nat :=
  ofMachine fun m =>
    let (result, after) := body.on { m with arguments := arguments }
    let result := match result with
      | .error (.returns status) => .ok status
      | result                   => result
    (result, { after with arguments := m.arguments })

end Act

end NativeMessaging.Shell
