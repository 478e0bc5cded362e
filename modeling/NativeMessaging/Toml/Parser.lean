import NativeMessaging.Toml.Number
import NativeMessaging.Toml.Table

/-!
# Toml — Parser

Reads a TOML document: lines that set keys, and headers that say which table the lines below them
belong to.
-/

namespace NativeMessaging.Toml

open Token (skipSpace skipLines)

/-! ### Values -/

/-- Reads what stands between the brackets of an array, and its closing bracket; blanks, comments
and line ends may stand everywhere, and a comma behind the last element. -/
def readItems (element : Reader Value) (size : Nat) :
    (rounds : Nat) → (acc : List Value) → Reader (List Value)
  | 0,          _,   _  => none
  | rounds + 1, acc, cs => do
    match ← skipLines size cs with
    | ']' :: rest => some (acc.reverse, rest)
    | cs          =>
      let (v, rest) ← element cs
      match ← skipLines size rest with
      | ',' :: rest => readItems element size rounds (v :: acc) rest
      | ']' :: rest => some ((v :: acc).reverse, rest)
      | _           => none

/-- Reads a key, the equals sign and a value. -/
def readAssignment (element : Reader Value) (cs : List Char) :
    Option ((List String × Value) × List Char) := do
  let (key, rest) ← Token.key cs
  match rest with
  | '=' :: rest =>
    let (v, rest) ← element (skipSpace rest)
    some ((key, v), rest)
  | _ => none

/-- Reads what stands between the braces of a table on one line, and its closing brace; no comma
stands behind the last entry. -/
def readEntries (element : Reader Value) :
    (rounds : Nat) → (acc : List (List String × Value)) → Reader (List (List String × Value))
  | 0,          _,   _  => none
  | rounds + 1, acc, cs => do
    let (assignment, rest) ← readAssignment element cs
    match skipSpace rest with
    | ',' :: rest => readEntries element rounds (assignment :: acc) rest
    | '}' :: rest => some ((assignment :: acc).reverse, rest)
    | _           => none

/-- Reads a table on one line behind its opening brace. -/
def readInlineTable (element : Reader Value) (rounds : Nat) (cs : List Char) :
    Option (Value × List Char) :=
  match skipSpace cs with
  | '}' :: rest => some (.table .inline [], rest)
  | cs          => do
    let (keys, rest) ← readEntries element rounds [] cs
    some (.table .inline (← Entries.setKeys keys), rest)

/-- Reads a value, with that many levels of nesting left. -/
def readValue (rounds : Nat) : (depth : Nat) → Reader Value
  | depth, cs =>
    match cs with
    | '"' :: cs  => do
      let (s, rest) ← Token.string '"' cs
      some (.string s, rest)
    | '\'' :: cs => do
      let (s, rest) ← Token.string '\'' cs
      some (.string s, rest)
    | 't' :: 'r' :: 'u' :: 'e' :: cs        => some (.boolean true, cs)
    | 'f' :: 'a' :: 'l' :: 's' :: 'e' :: cs => some (.boolean false, cs)
    | '[' :: cs  =>
      match depth with
      | 0         => none
      | depth + 1 => do
        let (items, rest) ← readItems (readValue rounds depth) rounds rounds [] cs
        some (.array items, rest)
    | '{' :: cs  =>
      match depth with
      | 0         => none
      | depth + 1 => readInlineTable (readValue rounds depth) rounds cs
    | cs         => Number.read cs

/-- How deep arrays and tables on one line may be nested. -/
def maxDepth : Nat := 79

/-! ### Lines -/

/-- The table that lines belong to: where it goes, and whether it is one of several under one
header. -/
structure Section where
  path : List String
  several : Bool
  deriving DecidableEq, Repr

/-- A document under way: the finished tables, the header of the table under way, if it has one, and
its entries. -/
structure Draft where
  root : Entries
  header : Option Section
  current : Entries

/-- A draft without a line. -/
def Draft.empty : Draft := ⟨[], none, []⟩

/-- Puts the table under way in its place. -/
def Draft.finish (draft : Draft) : Option Entries :=
  let table := Value.table .header draft.current
  match draft.header with
  | none        => some draft.current
  | some header => do
    let name ← header.path.getLast?
    Entries.descend false (fun _ es =>
      if header.several then
        Entries.update name (fun
          | none                 => some (.tables [table])
          | some (.tables items) => some (.tables (items ++ [table]))
          | some _               => none) es
      else Entries.insertNew name table es) header.path.dropLast .header draft.root

/-- Starts the table of a header. -/
def Draft.open (draft : Draft) (header : Section) : Option Draft := do
  let root ← draft.finish
  let name ← header.path.getLast?
  let path := header.path.dropLast
  if header.several then
    let root ← Entries.descend false (fun _ es => es.reserve name) path .header root
    some ⟨root, some header, []⟩
  else
    let current ← root.found path name
    let root ← Entries.descend false (fun _ es => do some (← es.reopen name).1) path .header root
    some ⟨root, some header, current⟩

/-- Sets a key of the table under way. -/
def Draft.set (draft : Draft) (key : List String) (v : Value) : Option Draft := do
  some { draft with current := ← Entries.setKey key.dropLast (← key.getLast?) v draft.current }

/-- Reads a header behind its first bracket. -/
def readHeader (cs : List Char) : Option (Section × List Char) :=
  match cs with
  | '[' :: cs => do
    match ← Token.key cs with
    | (path, ']' :: ']' :: rest) => some (⟨path, true⟩, ← Token.lineEnd rest)
    | _                          => none
  | cs => do
    match ← Token.key cs with
    | (path, ']' :: rest) => some (⟨path, false⟩, ← Token.lineEnd rest)
    | _                   => none

/-- Reads lines to the end of the text; every round takes at least one character. -/
def readLines (size : Nat) : (rounds : Nat) → Draft → List Char → Option Draft
  | 0,          _,     _  => none
  | rounds + 1, draft, cs => do
    match ← skipLines size cs with
    | []        => some draft
    | '[' :: cs =>
      let (header, rest) ← readHeader cs
      readLines size rounds (← draft.open header) rest
    | cs        =>
      let ((key, v), rest) ← readAssignment (readValue size maxDepth) cs
      readLines size rounds (← draft.set key v) (← Token.lineEnd rest)

/-- The table that a document spells. -/
def parse (s : String) : Option Value := do
  let text := s.toList
  let text := if text.head? = some '\uFEFF' then text.tail else text
  let size := text.length + 1
  let draft ← readLines size size .empty text
  some (.table .header (← draft.finish))

end NativeMessaging.Toml
