/-!
# Files — Path

Paths as texts, with a slash between their parts.
-/

namespace NativeMessaging.Files

/-- A path as it is written. -/
structure Path where
  text : String
  deriving DecidableEq, Repr

namespace Path

/-- Starts at the root of all files. -/
def isAbsolute (p : Path) : Bool := p.text.toList.head? == some '/'

/-- The path `q` seen from `p`. -/
def join (p : Path) (q : String) : Path :=
  if Path.isAbsolute ⟨q⟩ || p.text.isEmpty then ⟨q⟩
  else if p.text.toList.getLast? == some '/' then ⟨p.text ++ q⟩
  else ⟨p.text ++ "/" ++ q⟩

/-- Cuts characters at slashes: the part under way is held with its last character first. -/
def cutParts : (part : List Char) → List Char → List String
  | part, []      => [String.ofList part.reverse]
  | part, c :: cs =>
    if c = '/' then String.ofList part.reverse :: cutParts [] cs else cutParts (c :: part) cs

/-- The names on the way; empty ones and single dots do not lead anywhere. -/
def parts (p : Path) : List String :=
  (cutParts [] p.text.toList).filter fun part => part != "" && part != "."

/-- The names on the way from the root, when the path starts in a working directory; two dots go one
name back. -/
def resolve (p : Path) (working : List String) : List String :=
  let start := if p.isAbsolute then [] else working
  p.parts.foldl (fun way part => if part = ".." then way.dropLast else way ++ [part]) start

/-- Ends in a slash. -/
def endsInSlash (p : Path) : Bool := p.text.toList.getLast? == some '/'

end Path

end NativeMessaging.Files
