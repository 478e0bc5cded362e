import NativeMessaging.Files.Tree

/-!
# Files — Retention

Keeps the newest of the files whose names start with a stem, and removes the others, the oldest
first.  A directory cannot be removed: there the removal stops.
-/

namespace NativeMessaging.Files

/-- An entry of a directory, as far as retention looks at it. -/
structure Listed where
  name : String
  isDirectory : Bool
  modified : Int
  deriving DecidableEq, Repr

namespace Retention

/-- The name starts with the stem. -/
def matchesStem (stem : String) (entry : Listed) : Bool :=
  stem.toList.isPrefixOf entry.name.toList

/-- The entries whose names start with the stem, the oldest first. -/
def oldestFirst (stem : String) (entries : List Listed) : List Listed :=
  (entries.filter (matchesStem stem)).mergeSort fun a b => decide (a.modified ≤ b.modified)

/-- The entries that are too many when `keep` of them stay, the oldest first; at least one stays. -/
def surplus (stem : String) (keep : Nat) (entries : List Listed) : List Listed :=
  let ours := oldestFirst stem entries
  ours.take (ours.length - max keep 1)

/-- The names that can be removed, and the entry at which the removal stops, if any. -/
def removal (surplus : List Listed) : List String × Option Listed :=
  ((surplus.takeWhile (!·.isDirectory)).map Listed.name,
    (surplus.dropWhile (!·.isDirectory)).head?)

/-- The entries of a directory as retention sees them. -/
def listed (entries : Entries) : List Listed :=
  entries.map fun (name, node) => ⟨name, node.isDirectory, node.modified⟩

/-- Removes what is too many in a directory; with the tree comes the name of the entry that could
not be removed, if there is one. -/
def clean (tree : Tree) (directory : Path) (stem : String) (keep : Nat) :
    Except OsError (Option String × Tree) := do
  let (names, stuck) := removal (surplus stem keep (listed (← tree.list directory)))
  let way := directory.resolve tree.working
  let tree ← names.foldlM (fun tree name => tree.removeFile (way ++ [name])) tree
  .ok (stuck.map Listed.name, tree)

end Retention

end NativeMessaging.Files
