import NativeMessaging.Decimal.Shortest

/-!
# Json — Value

JSON values.  An object keeps its members as they were written, repeated names included; `get?`
looks a name up, the last member of a name being the one that counts, and `canonical` keeps only
those members, in ascending order of their names.
-/

namespace NativeMessaging

namespace Json

open Decimal (Binary64)

/-- A JSON number: a natural number below `2 ^ 64`, the negative of a natural number of at most
`2 ^ 63`, or a binary floating-point number. -/
inductive Number where
  | natural (n : Nat)
  | negative (n : Nat)
  | real (x : Binary64)
  deriving DecidableEq, Repr

end Json

inductive Json where
  | null
  | bool (b : Bool)
  | number (n : Json.Number)
  | string (s : String)
  | array (items : List Json)
  | object (members : List (String × Json))
  deriving Repr

namespace Json

/-- The value of the last member of that name. -/
def lookup (name : String) : List (String × Json) → Option Json
  | []           => none
  | (n, v) :: ms =>
    match lookup name ms with
    | some w => some w
    | none   => if n = name then some v else none

/-- The member of an object. -/
def get? (name : String) : Json → Option Json
  | .object ms => lookup name ms
  | _          => none

/-- The text that a value is, if it is one. -/
def string? : Json → Option String
  | .string s => some s
  | _         => none

/-- The natural number that a value is, whether it was written with a fraction or not. -/
def natural? : Json → Option Nat
  | .number (.natural n) => some n
  | .number (.real x)    => x.toNat?
  | _                    => none

/-- Puts a member into members in ascending order of their names, in place of one of its name. -/
def insertMember (name : String) (v : Json) : List (String × Json) → List (String × Json)
  | []           => [(name, v)]
  | (n, w) :: ms =>
    if name < n then (name, v) :: (n, w) :: ms
    else if name = n then (name, v) :: ms
    else (n, w) :: insertMember name v ms

/-- The members that count, in ascending order of their names. -/
def sortMembers (ms : List (String × Json)) : List (String × Json) :=
  ms.foldl (fun sorted (n, v) => insertMember n v sorted) []

mutual

/-- The value with the members of every object sorted, and only those that count. -/
def canonical : Json → Json
  | .array items    => .array (canonicalItems items)
  | .object members => .object (sortMembers (canonicalMembers members))
  | v               => v

def canonicalItems : List Json → List Json
  | []      => []
  | v :: vs => canonical v :: canonicalItems vs

def canonicalMembers : List (String × Json) → List (String × Json)
  | []           => []
  | (n, v) :: ms => (n, canonical v) :: canonicalMembers ms

end

end Json

end NativeMessaging
