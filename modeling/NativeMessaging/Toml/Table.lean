import NativeMessaging.Toml.Value

/-!
# Toml — Table

How keys and headers build tables.  A path may lead through tables that are there or make new ones;
what was closed cannot be opened again, and no key is set twice.
-/

namespace NativeMessaging.Toml

/-- The entries of a table, in the order in which they were made. -/
abbrev Entries := List (String × Value)

namespace Entries

/-- Changes the value of a name, which is there, or makes it at the end. -/
def update (name : String) (f : Option Value → Option Value) : Entries → Option Entries
  | []           => do some [(name, ← f none)]
  | (n, v) :: es =>
    if n = name then do some ((n, ← f (some v)) :: es)
    else do some ((n, v) :: (← update name f es))

/-- A name gets its first value. -/
def insertNew (name : String) (v : Value) : Entries → Option Entries :=
  update name fun
    | none   => some v
    | some _ => none

/-- The entries without a name. -/
def erase (name : String) (entries : Entries) : Entries := entries.filter (·.1 != name)

/-- Changes the last of a list. -/
def updateLast (f : Value → Option Value) : List Value → Option (List Value)
  | []      => none
  | [v]     => do some [← f v]
  | v :: vs => do some (v :: (← updateLast f vs))

/-- What a step on the way to a table finds: a table is gone through unless it is a value between
braces, and dotted keys go through no table that has a header; of several tables under one header the
last counts; where nothing is, a table is made. -/
def enter (dotted : Bool) (f : TableKind → Entries → Option Entries) : Option Value → Option Value
  | none                   =>
    let kind := if dotted then TableKind.dotted else TableKind.passed
    do some (.table kind (← f kind []))
  | some (.table kind es)  =>
    if kind = .inline ∨ (dotted ∧ kind = .header) then none else do some (.table kind (← f kind es))
  | some (.tables items)   => do
    some (.tables (← updateLast (fun
      | .table kind es => do some (.table kind (← f kind es))
      | _              => none) items))
  | some _                 => none

/-- Changes the entries at the end of a path. -/
def descend (dotted : Bool) (f : TableKind → Entries → Option Entries) :
    (path : List String) → TableKind → Entries → Option Entries
  | [],           kind, entries => f kind entries
  | name :: path, _,    entries => update name (enter dotted (descend dotted f path)) entries

/-- Sets a key.  Dotted keys only add to tables that dotted keys have made. -/
def setKey (path : List String) (name : String) (v : Value) (entries : Entries) : Option Entries :=
  descend true (fun kind es =>
    if !path.isEmpty ∧ kind ≠ .dotted then none else insertNew name v es) path .header entries

/-- Sets keys in order. -/
def setKeys (keys : List (List String × Value)) : Option Entries :=
  keys.foldlM (fun entries (key, v) => do setKey key.dropLast (← key.getLast?) v entries) []

/-- The value of a name. -/
def find? (name : String) (entries : Entries) : Option Value := entries.lookup name

/-- Takes from the entries what a new header finds under its name: nothing, or a table that was only
passed on the way to another, whose entries the header keeps. -/
def reopen (name : String) (entries : Entries) : Option (Entries × Entries) :=
  match entries.find? name with
  | none                       => some (entries, [])
  | some (.table .passed es)   => some (entries.erase name, es)
  | some _                     => none

/-- Under a header for several tables there may only be such tables. -/
def reserve (name : String) (entries : Entries) : Option Entries :=
  update name (fun
    | none                 => some (.tables [])
    | some (.tables items) => some (.tables items)
    | some _               => none) entries

/-- The entries that a new header finds under the name at the end of a path. -/
def found (path : List String) (name : String) (root : Entries) : Option Entries :=
  match path with
  | []        => do some (← root.reopen name).2
  | p :: path =>
    match root.find? p with
    | none                   => some []
    | some (.table _ es)     => found path name es
    | some (.tables items)   =>
      match items.getLast? with
      | some (.table _ es) => found path name es
      | _                  => none
    | some _                 => none

end Entries

end NativeMessaging.Toml
