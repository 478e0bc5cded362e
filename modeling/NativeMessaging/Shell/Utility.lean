import NativeMessaging.Shell.Editor
import NativeMessaging.Shell.Format
import NativeMessaging.Shell.Machine

/-!
# Shell — Utility

The commands that a script can name.  Each gives a status: zero for success.
-/

namespace NativeMessaging.Shell

namespace Utility

/-! ### Input -/

/-- The first line of bytes without its line feed, and the bytes behind it. -/
def firstLine : List UInt8 → Option (List UInt8 × List UInt8)
  | []      => none
  | b :: bs => if b = 10 then some ([], bs) else (firstLine bs).map fun (l, r) => (b :: l, r)

/-- The text of bytes; what is no text is empty. -/
def textOf (bytes : List UInt8) : String := ((Text.Utf8.decode bytes).toOption).getD ""

/-- Takes away backslashes, each of which lets the next character stand for itself. -/
def unescaped : List Char → List Char
  | '\\' :: c :: cs => c :: unescaped cs
  | c :: cs         => c :: unescaped cs
  | []              => []

def isBlank (c : Char) : Bool := c == ' ' || c == '\t' || c == '\n'

/-- Drops what satisfies `p` at the end. -/
def dropEnd (p : Char → Bool) (cs : List Char) : List Char := (cs.reverse.dropWhile p).reverse

/-- Gives each name a field of the line; the last one takes the rest. -/
def fieldsFor (separators : List Char) : List String → List Char → List (String × String)
  | [],      _  => []
  | [n],     cs =>
    [(n, String.ofList (dropEnd (fun c => isBlank c && c ∈ separators)
      (cs.dropWhile fun c => isBlank c && c ∈ separators)))]
  | n :: ns, cs =>
    let cs := cs.dropWhile fun c => isBlank c && c ∈ separators
    let field := cs.takeWhile (· ∉ separators)
    (n, String.ofList field) :: fieldsFor separators ns (cs.drop (field.length + 1))

/-- Reads a line into variables; fails at the end of the input. -/
def read (args : List String) : Act Nat := do
  let raw := args.head? == some "-r"
  let names := if raw then args.tail else args
  let (line, rest, status) ← do
    match ← Act.readable with
    | none                => return 1
    | some (bytes, ended) =>
      match firstLine bytes with
      | some (line, rest) => pure (line, rest, 0)
      | none              => if ended then pure (bytes, [], 1) else Act.halt .waiting
  Act.leave rest
  let cs := (textOf line).toList
  let separators := (((← Act.machine).environment.lookup "IFS").getD " \t\n").toList
  for (n, v) in fieldsFor separators names (if raw then cs else unescaped cs) do
    Act.assign n v
  return status

/-- Copies everything that can be read. -/
def copyInput : Act Nat := do
  match ← Act.readable with
  | none                => return 1
  | some (bytes, ended) =>
    Act.leave []
    let status ← Act.write bytes
    if ended || status != 0 then return status else Act.halt .waiting

/-- Copies files in order; a dash stands for the input. -/
def copyFiles : List String → Act Nat
  | []          => return 0
  | file :: files => do
    let status ← if file = "-" ∨ file = "/dev/stdin" then copyInput else do
      match (← Act.machine).files.find ⟨file⟩ with
      | .ok (.file bytes _ _) => Act.write bytes
      | _                     => return 1
    let rest ← copyFiles files
    return max status rest

def cat (args : List String) : Act Nat :=
  let files := args.filter fun arg => arg != "-u"
  copyFiles (if files.isEmpty then ["-"] else files)

/-- Edits everything that can be read. -/
def sed (args : List String) : Act Nat := do
  match Editor.Call.ofArgs args with
  | none      => return 1
  | some call =>
    match ← Act.readable with
    | none                => return 1
    | some (bytes, ended) =>
      let (out, done) := call.run bytes ended
      let status ← Act.write out
      if done || status != 0 then
        Act.leave []
        return status
      else Act.halt .waiting

/-! ### Conditions -/

/-- Compares two texts or numbers. -/
def compare (a operator b : String) : Bool :=
  let numbers (holds : Int → Int → Bool) : Bool :=
    match a.toInt?, b.toInt? with
    | some m, some n => holds m n
    | _,      _      => false
  match operator with
  | "="   => a = b
  | "!="  => a ≠ b
  | "-eq" => numbers (· == ·)
  | "-ne" => numbers (· != ·)
  | "-lt" => numbers fun m n => decide (m < n)
  | "-le" => numbers fun m n => decide (m ≤ n)
  | "-gt" => numbers fun m n => decide (n < m)
  | "-ge" => numbers fun m n => decide (n ≤ m)
  | _     => false

/-- Whether a condition holds. -/
def holds (files : Files.Tree) : List String → Bool
  | "!" :: args => !holds files args
  | ["-n", a]   => !a.isEmpty
  | ["-z", a]   => a.isEmpty
  | ["-e", a]   => files.exists? ⟨a⟩
  | ["-d", a]   => files.isDirectory ⟨a⟩
  | ["-f", a]   => files.exists? ⟨a⟩ && !files.isDirectory ⟨a⟩
  | [a]         => !a.isEmpty
  | [a, o, b]   => compare a o b
  | _           => false

def test (args : List String) : Act Nat := do
  return if holds (← Act.machine).files args then 0 else 1

/-! ### Time and place -/

/-- How many seconds of sleep anybody waits for. -/
def patience : Nat := 10

/-- Sleeps; nobody waits for the end of a long sleep. -/
def sleep (args : List String) : Act Nat :=
  match args with
  | [time] =>
    let seconds := String.ofList (time.toList.takeWhile Char.isDigit)
    let digits := time.toList.all fun c => c.isDigit || c == '.'
    if digits && (seconds.toNat?.getD 0) < patience then return 0 else Act.halt .asleep
  | _      => return 1

/-- The path of the working directory. -/
def place : Act String := do
  return "/" ++ String.intercalate "/" (← Act.machine).files.working

/-- The variable that holds the path of the working directory. -/
def placeVariable : String := "PWD"

def changeDirectory (args : List String) : Act Nat := do
  let m ← Act.machine
  let path : Files.Path := ⟨args.head?.getD "/"⟩
  if m.files.isDirectory path then
    Act.modify fun m =>
      { m with files := { m.files with working := path.resolve m.files.working } }
    Act.assign placeVariable (← place)
    return 0
  else return 2

/-- Sets the arguments of the script; options are taken no notice of. -/
def setArguments (args : List String) : Act Nat := do
  if args.head? == some "--" then
    Act.modify fun m => { m with arguments := args.tail }
  return 0

def shift (args : List String) : Act Nat := do
  let n := (args.head?.bind String.toNat?).getD 1
  if (← Act.machine).arguments.length < n then return 2
  else
    Act.modify fun m => { m with arguments := m.arguments.drop n }
    return 0

/-! ### Processes -/

/-- The number of the script among the processes. -/
def ownNumber : String := "4711"

/-- The number of what the script left running. -/
def childNumber : String := "4712"

/-- Kills the script or what it left running; a signal of zero only asks whether they are there. -/
def kill (args : List String) : Act Nat := do
  if args.head? == some "-0" then return 0
  else if args.contains ownNumber then Act.halt (.exit 143)
  else
    if args.contains childNumber then Act.modify fun m => { m with lingering := false }
    return 0

/-- The status of a command that is not there. -/
def notFound : Nat := 127

/-- Runs a command that is not part of the shell. -/
def runProgram (name : String) (args : List String) : Option (Act Nat) :=
  match name with
  | "true"   => some (return 0)
  | "false"  => some (return 1)
  | "cat"    => some (cat args)
  | "sed"    => some (sed args)
  | "sleep"  => some (sleep args)
  | "printf" => some (match args with
    | []             => return 2
    | format :: args => Act.write (Format.printf format args))
  | "echo"   => some (Act.write (Format.echo args))
  | "pwd"    => some (do Act.write (Text.Utf8.encode ((← place) ++ "\n")))
  | "test"   => some (test args)
  | "["      => some (test (args.take (args.length - 1)))
  | _        => none

/-- Runs a command by its name, which may be a path. -/
def run (name : String) (args : List String) : Act Nat :=
  match name with
  | ":"     => return 0
  | "read"  => read args
  | "cd"    => changeDirectory args
  | "set"   => setArguments args
  | "shift" => shift args
  | "kill"  => kill args
  | "trap"  => return 0
  | "wait"  => return 0
  | name    =>
    let last := (Files.Path.mk name).parts.getLast?.getD ""
    match runProgram (if name.toList.contains '/' then last else name) args with
    | some act => act
    | none     => return notFound

end Utility

end NativeMessaging.Shell
