import NativeMessaging.Subprocess.Basic
import NativeMessaging.Shell.Evaluation

/-!
# Subprocess — Launch

Finds the program that an executable names and what keeps it from running.  The programs that there
are: the shell and its utilities, each in a file that contains the program's name.
-/

namespace NativeMessaging

open Files (Tree OsError Node)
open Shell (Machine Act Command)

/-- What is to run, and how. -/
structure Launch where
  executable : String
  args : List String
  workingDirectory : Option String
  environment : List (String × String)
  deriving DecidableEq, Repr

/-- Why nothing runs. -/
inductive LaunchError where
  | os (error : OsError)
  | zeroByte
  deriving DecidableEq, Repr

def LaunchError.message : LaunchError → String
  | .os error => error.message
  | .zeroByte => "nul byte found in provided data"

namespace Launch

/-! ### Programs -/

/-- Where programs are looked for by name. -/
def searchPath : String := "/usr/local/sbin:/usr/local/bin:/usr/sbin:/usr/bin:/sbin:/bin"

/-- The variables that every process has. -/
def inherited : List (String × String) := [("HOME", "/root"), ("PATH", searchPath)]

/-- The variable that holds the path of the working directory. -/
def placeOf (files : Tree) : String × String :=
  (Shell.Utility.placeVariable, "/" ++ String.intercalate "/" files.working)

/-- A machine on which a script starts. -/
def machine (launch : Launch) (files : Tree) (name : String) (args : List String)
    (given : List UInt8) (ended : Bool) : Machine where
  feed := given
  ended := ended
  written := []
  inlet := .feed
  outlet := .output
  environment := placeOf files :: launch.environment.filter (·.1 != Shell.Utility.placeVariable) ++ inherited
  functions := []
  name := name
  arguments := args
  files := files
  status := 0
  adopted := false
  holdsInput := true
  holdsOutput := true
  lingering := false

/-- What is seen of an act: a process that is over holds its output only through what it left
running. -/
def observe {α : Type} (act : Act α) (m : Machine) : Behaviour :=
  let (result, after) := act.on m
  let isOver := match result with
    | .ok _         => true
    | .error reason => reason.status?.isSome
  ⟨after.written.reverse, !isOver && after.holdsInput,
    after.lingering || (!isOver && after.holdsOutput)⟩

/-- The most steps that a script may take. -/
def maxSteps : Nat := 1000000

/-- Runs a script; one that cannot be read ends at once. -/
def runScript (script : String) : Act Nat :=
  match Command.parse script with
  | some command => Shell.evaluate maxSteps command
  | none         => return 2

/-- What the shell does with its arguments. -/
def shell (launch : Launch) (files : Tree) : List String → Program
  | []          => fun given ended => observe Shell.Utility.copyInput
    { launch.machine files "sh" [] given ended with outlet := .unseen }
  | arg :: args =>
    if arg.toList.head? == some '-' && arg.toList.contains 'c' then
      match args with
      | []             => fun _ _ => ⟨[], false, false⟩
      | script :: rest => fun given ended =>
        observe (runScript script) (launch.machine files (rest.head?.getD "sh") rest.tail given ended)
    else
      match files.readText ⟨arg⟩ with
      | .ok script => fun given ended =>
        observe (runScript script) (launch.machine files arg args given ended)
      | .error _   => fun _ _ => ⟨[], false, false⟩

/-- The name of the shell. -/
def shellName : String := "sh"

/-- The programs by name. -/
def program (launch : Launch) (files : Tree) (name : String) : Program :=
  if name = shellName then shell launch files launch.args
  else fun given ended =>
    observe ((Shell.Utility.runProgram name launch.args).getD (return 0))
      (launch.machine files name [] given ended)

/-! ### Finding the program -/

/-- The program in an executable file. -/
def nameIn (files : Tree) (path : Files.Path) : Except OsError String := do
  match ← files.find path with
  | .file bytes true _ => .ok (Shell.Utility.textOf bytes)
  | _                  => .error .permissionDenied

/-- Looks for a program in directories; that one of them has no such file is not the last word. -/
def lookIn (files : Tree) (name : String) : (denied : Bool) → List String → Except OsError String
  | denied, []      => .error (if denied then .permissionDenied else .notFound)
  | denied, d :: ds =>
    match nameIn files ((Files.Path.mk d).join name) with
    | .ok found                => .ok found
    | .error .permissionDenied => lookIn files name true ds
    | .error .nameTooLong      => .error .nameTooLong
    | .error _                 => lookIn files name denied ds

/-- Cuts a search path at its colons. -/
def directoriesOf (path : String) : List String := path.splitOn ":"

/-- The program that the executable names: by a path, or by a name that is looked for. -/
def find (launch : Launch) (files : Tree) : Except OsError String :=
  if launch.executable.isEmpty then .error .notFound
  else if launch.executable.toList.contains '/' then nameIn files ⟨launch.executable⟩
  else
    lookIn files launch.executable false
      (directoriesOf ((launch.environment.lookup "PATH").getD searchPath))

/-- A text that cannot be given to a process. -/
def hasZero (s : String) : Bool := s.toList.contains '\x00'

/-- The files as the process sees them, from its working directory. -/
def filesFor (launch : Launch) (files : Tree) : Except OsError Tree :=
  match launch.workingDirectory with
  | none   => .ok files
  | some d => do
    match ← files.find ⟨d⟩ with
    | .directory _ _ => .ok { files with working := (Files.Path.mk d).resolve files.working }
    | .file _ _ _    => .error .notDirectory

/-- Starts a process. -/
def start (launch : Launch) (files : Tree) : Except LaunchError Subprocess := do
  let texts := [launch.executable] ++ launch.args ++ launch.workingDirectory.toList ++
    launch.environment.map Prod.fst ++ launch.environment.map Prod.snd
  if texts.any hasZero then .error .zeroByte
  else
    let files ← (launch.filesFor files).mapError .os
    let name ← (launch.find files).mapError .os
    .ok (.start (launch.program files name))

end Launch

end NativeMessaging
