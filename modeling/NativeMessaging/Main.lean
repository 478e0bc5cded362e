import NativeMessaging.CommandLine.Execution
import NativeMessaging.Subprocess.Installed

/-!
# Main

The program at the ends of the library.  The files that matter are looked at first, then the library
decides what is to be done, and then that is done: directories are made, old logs removed, a text
printed, or a browser served on the standard streams.
-/

namespace NativeMessaging.Console

open CommandLine (Doing Invocation)
open Files (Node Tree)
open Host (Session)

/-! ### Looking at files -/

/-- What stands at a path, if anything does; only what is read for its text comes with its bytes. -/
def look (path : String) (withText : Bool) : IO (Option Node) := do
  try
    let real ← IO.FS.realPath path
    let data ← real.metadata
    let time := data.modified.sec * 1000000000 + data.modified.nsec.toNat
    match data.type with
    | .dir => return some (.directory [] time)
    | _    =>
      let bytes ← if withText then IO.FS.readBinFile real else pure .empty
      return some (.file bytes.data.toList false time)
  catch _ => return none

/-- A tree with one more node, where there is room for it. -/
def withNode (tree : Tree) (way : List String) : Node → Tree
  | .file bytes _ time => (tree.writeFile way bytes (some time)).toOption.getD tree
  | .directory _ time  =>
    match tree.makeDirectory way with
    | .ok tree => (tree.setModified way time).toOption.getD tree
    | .error _ => tree

/-- A tree with what stands on the way to a path. -/
def withWay (made : List String) : (way : List String) → Tree → IO Tree
  | [],          tree => return tree
  | name :: way, tree => do
    let here := made ++ [name]
    match ← look ("/" ++ String.intercalate "/" here) way.isEmpty with
    | some node => withWay here way (withNode tree here node)
    | none      => return tree

/-- A tree with the entries of a directory that is in it. -/
def withEntries (tree : Tree) (path : Files.Path) : IO Tree := do
  try
    let real ← IO.FS.realPath path.text
    let mut tree := tree
    for entry in ← real.readDir do
      if let some node ← look (path.join entry.fileName).text false then
        tree := withNode tree (path.resolve tree.working ++ [entry.fileName]) node
    return tree
  catch _ => return tree

/-- The files that an invocation may come upon. -/
def filesFor (invocation : Invocation) (dirs : Directories) : IO Tree := do
  let working := Files.Path.parts ⟨(← IO.currentDir).toString⟩
  let mut tree : Tree := { root := Subprocess.installed, working := working, clock := 0 }
  for path in [⟨"."⟩, dirs.config, dirs.data, dirs.log, invocation.settingsPath dirs] do
    tree ← withWay [] (path.resolve working) tree
  withEntries tree dirs.log

/-! ### Changing files -/

/-- Makes the directories that are new in a tree, and removes the logs that it lost. -/
def carryOut (before after : Tree) (dirs : Directories) : IO Unit := do
  for path in [dirs.config, dirs.data, dirs.log] do
    if after.isDirectory path && !before.isDirectory path then IO.FS.createDirAll path.text
  for (name, _) in (before.list dirs.log).toOption.getD [] do
    let path := dirs.log.join name
    unless after.exists? path do IO.FS.removeFile path.text

/-! ### Serving -/

/-- Sends what a session has to send. -/
def send (output : IO.FS.Stream) (session : Session) : IO Session := do
  let (bytes, session) := session.drain
  output.write ⟨bytes.toArray⟩
  output.flush
  return session

/-- Serves a browser until the input ends or nothing is read any more. -/
partial def serve (input output : IO.FS.Stream) (session : Session) : IO Unit := do
  let session ← send output session
  let more ← if session.isReading then input.read (USize.ofNat session.wanted) else pure .empty
  if more.isEmpty then discard (send output session.finish)
  else serve input output (session.receive more.data.toList)

/-! ### The program -/

/-- The variables of the environment that say where things are kept. -/
def environment : IO Directories.Environment := do
  return ⟨← IO.getEnv "HOME", ← IO.getEnv "XDG_CONFIG_HOME", ← IO.getEnv "XDG_DATA_HOME"⟩

/-- Does what is left to do, and gives the exit status. -/
def finish : Doing → IO UInt32
  | .prints text    => do
    IO.print text
    return 0
  | .fails status   => return UInt32.ofNat status
  | .serves session => do
    serve (← IO.getStdin) (← IO.getStdout) session
    return 0

end NativeMessaging.Console

open NativeMessaging in
def main (args : List String) : IO UInt32 := do
  let environment ← Console.environment
  let dirs := Directories.discover environment
  let before ← match CommandLine.parse args with
    | .ok invocation => Console.filesFor invocation dirs
    | .error _       => pure .empty
  let (doing, after) := CommandLine.execute args environment before
  Console.carryOut before after dirs
  Console.finish doing
