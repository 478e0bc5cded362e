import NativeMessaging.Files.OsError
import NativeMessaging.Files.Path
import NativeMessaging.Text.Utf8

/-!
# Files — Tree

A tree of directories and files.  A name leads through directories only; what is new or changed in a
directory gives it a new time of modification.
-/

namespace NativeMessaging.Files

/-- A file with its bytes, or a directory with its entries by name. -/
inductive Node where
  | file (bytes : List UInt8) (executable : Bool) (modified : Int)
  | directory (entries : List (String × Node)) (modified : Int)

namespace Node

def isDirectory : Node → Bool
  | .directory _ _ => true
  | .file _ _ _    => false

/-- When a node was last changed. -/
def modified : Node → Int
  | .file _ _ t    => t
  | .directory _ t => t

/-- The node with another time of modification. -/
def touch (t : Int) : Node → Node
  | .file bytes executable _ => .file bytes executable t
  | .directory entries _     => .directory entries t

end Node

/-- The longest name of an entry, in bytes. -/
def maxNameSize : Nat := 255

/-- The entries of a directory. -/
abbrev Entries := List (String × Node)

namespace Entries

/-- Changes an entry that is there. -/
def replace (name : String) (node : Node) (entries : Entries) : Entries :=
  entries.map fun (n, old) => if n = name then (n, node) else (n, old)

/-- The entries without a name. -/
def erase (name : String) (entries : Entries) : Entries := entries.filter (·.1 != name)

/-- The node at the end of a way. -/
def find (way : List String) (entries : Entries) : Except OsError Node :=
  match way with
  | []          => .ok (.directory entries 0)
  | name :: way =>
    if maxNameSize < name.utf8ByteSize then .error .nameTooLong
    else
      match entries.lookup name with
      | none                       => .error .notFound
      | some (.directory inner t)  => if way.isEmpty then .ok (.directory inner t) else find way inner
      | some (.file bytes x t)     =>
        if way.isEmpty then .ok (.file bytes x t) else .error .notDirectory

/-- Changes the directory on the way to a name by `f`, which gets the name; the directory then has
the time `now` if its entries changed. -/
def change (now : Option Int) (f : String → Entries → Except OsError Entries) :
    (way : List String) → Entries → Except OsError Entries
  | [],          _       => .error .exists
  | [name],      entries => if maxNameSize < name.utf8ByteSize then .error .nameTooLong else f name entries
  | name :: way, entries =>
    match entries.lookup name with
    | none                      => .error .notFound
    | some (.file _ _ _)        => .error .notDirectory
    | some (.directory inner t) => do
      let inner ← change now f way inner
      let t := if way.length = 1 then now.getD t else t
      .ok (replace name (.directory inner t) entries)

end Entries

/-- All files: the entries of the root, the working directory, and the time. -/
structure Tree where
  root : Entries
  working : List String
  clock : Int

namespace Tree

/-- No file at all; the working directory is the root. -/
def empty : Tree := ⟨[], [], 0⟩

/-- The node that a path names. -/
def find (tree : Tree) (path : Path) : Except OsError Node :=
  if path.text.isEmpty then .error .notFound
  else do
    match ← tree.root.find (path.resolve tree.working) with
    | .file bytes x t =>
      if path.endsInSlash then .error .notDirectory else .ok (.file bytes x t)
    | node            => .ok node

def exists? (tree : Tree) (path : Path) : Bool := (tree.find path).isOk

def isDirectory (tree : Tree) (path : Path) : Bool :=
  match tree.find path with
  | .ok node => node.isDirectory
  | .error _ => false

/-- Changes the directory that a way leads into; the time goes on. -/
def change (tree : Tree) (way : List String) (f : String → Entries → Except OsError Entries) :
    Except OsError Tree := do
  let root ← tree.root.change (some tree.clock) f way
  .ok { tree with root := root, clock := tree.clock + 1 }

/-- Makes a directory in one that is there. -/
def makeDirectory (tree : Tree) (way : List String) : Except OsError Tree :=
  tree.change way fun name entries =>
    match entries.lookup name with
    | some _ => .error .exists
    | none   => .ok (entries ++ [(name, .directory [] tree.clock)])

/-- Makes a directory and those that are missing on the way to it. -/
def makeWay (tree : Tree) : (missing : List String) → (made : List String) → Except OsError Tree
  | [],          _    => .ok tree
  | name :: way, made => do
    let here := made ++ [name]
    match tree.root.find here with
    | .ok (.directory _ _) => makeWay tree way here
    | .ok (.file _ _ _)    => .error (if way.isEmpty then .exists else .notDirectory)
    | .error _             => makeWay (← tree.makeDirectory here) way here

/-- Makes a directory and those that are missing on the way to it; one that is there will do. -/
def makeDirectories (tree : Tree) (path : Path) : Except OsError Tree :=
  tree.makeWay (path.resolve tree.working) []

/-- Writes a file in a directory that is there, with a time of its own if one is given. -/
def writeFile (tree : Tree) (way : List String) (bytes : List UInt8) (modified : Option Int) :
    Except OsError Tree :=
  let node := Node.file bytes false (modified.getD tree.clock)
  tree.change way fun name entries =>
    match entries.lookup name with
    | none                   => .ok (entries ++ [(name, node)])
    | some (.file _ _ _)     => .ok (entries.replace name node)
    | some (.directory _ _)  => .error .isDirectory

/-- Removes a file. -/
def removeFile (tree : Tree) (way : List String) : Except OsError Tree :=
  tree.change way fun name entries =>
    match entries.lookup name with
    | none                  => .error .notFound
    | some (.file _ _ _)    => .ok (entries.erase name)
    | some (.directory _ _) => .error .isDirectory

/-- Gives a node a time of modification. -/
def setModified (tree : Tree) (way : List String) (t : Int) : Except OsError Tree := do
  let root ← tree.root.change none (fun name entries =>
    match entries.lookup name with
    | none      => .error .notFound
    | some node => .ok (entries.replace name (node.touch t))) way
  .ok { tree with root := root }

/-- The entries of a directory. -/
def list (tree : Tree) (path : Path) : Except OsError Entries := do
  match ← tree.find path with
  | .directory entries _ => .ok entries
  | .file _ _ _          => .error .notDirectory

/-- Why a text cannot be read from a file. -/
inductive ReadError where
  | os (error : OsError)
  | notText
  deriving DecidableEq, Repr

def ReadError.message : ReadError → String
  | .os error => error.message
  | .notText  => "stream did not contain valid UTF-8"

/-- The text of a file. -/
def readText (tree : Tree) (path : Path) : Except ReadError String :=
  match tree.find path with
  | .error e                => .error (.os e)
  | .ok (.directory _ _)    => .error (.os .isDirectory)
  | .ok (.file bytes _ _)   =>
    match Text.Utf8.decode bytes with
    | .ok text => .ok text
    | .error _ => .error .notText

end Tree

end NativeMessaging.Files
