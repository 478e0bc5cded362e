import NativeMessaging.Json.Printer
import NativeMessaging.Json.Skip

/-!
# Json — Decoder

Readers for values of a known type.  A value of another type is read as far as its kind shows, and
the fault names what was found and what was expected.
-/

namespace NativeMessaging.Json

open Shape (Found Mismatch)
open Token (skipSpace stringBody)

/-- A number as something found. -/
def Number.found : Number → Found
  | .natural n  => .integer n
  | .negative n => .integer (-n)
  | .real x     => .real (String.ofList (realStyle.write x))

/-- A value as something found. -/
def found : Json → Found
  | .null     => .null
  | .bool b   => .boolean b
  | .number n => n.found
  | .string s => .string s
  | .array _  => .sequence
  | .object _ => .map

namespace Decoder

/-- Fails with a mismatch before the rest. -/
def mismatch {α : Type} (m : Mismatch) (rest : List Char) : Except Fault α :=
  failBefore (.shape m) rest

/-- Reads a scalar, or stops before a bracket, to say that it is not what was expected. -/
def invalidType {α : Type} (expected : String) (cs : List Char) : Except Fault α :=
  match skipSpace cs with
  | []        => failAt .eofInValue []
  | '[' :: cs => mismatch (.invalidType .sequence expected) ('[' :: cs)
  | '{' :: cs => mismatch (.invalidType .map expected) ('{' :: cs)
  | cs        => do
    let (v, rest) ← readValue 0 0 cs
    mismatch (.invalidType v.found expected) rest

/-- A number of 32 bits. -/
def uint32 (cs : List Char) : Except Fault (UInt32 × List Char) :=
  let expected := "u32"
  let check (outcome : Except Fault (Number × List Char)) : Except Fault (UInt32 × List Char) := do
    let (n, rest) ← outcome
    match n with
    | .natural n  =>
      if n < UInt32.size then .ok (UInt32.ofNat n, rest)
      else mismatch (.invalidValue (.integer n) expected) rest
    | .negative n => mismatch (.invalidValue (.integer (-n)) expected) rest
    | .real x     => mismatch (.invalidType (Number.real x).found expected) rest
  match skipSpace cs with
  | '-' :: cs => check (Token.number true cs)
  | c :: cs   =>
    if c.isDigit then check (Token.number false (c :: cs)) else invalidType expected (c :: cs)
  | []        => failAt .eofInValue []

/-- A string. -/
def string (expected : String) (cs : List Char) : Except Fault (String × List Char) :=
  match skipSpace cs with
  | '"' :: cs => stringBody [] 0 cs
  | cs        => invalidType expected cs

/-- A value or `null`. -/
def optional {α : Type} (reader : Reader α) (cs : List Char) :
    Except Fault (Option α × List Char) :=
  match skipSpace cs with
  | 'n' :: cs => do .ok (none, ← Token.word ['u', 'l', 'l'] cs)
  | cs        => do
    let (v, rest) ← reader cs
    .ok (some v, rest)

/-- One of the named choices as a string. -/
def choiceName {α : Type} (choices : List (String × α)) (expected : String) (cs : List Char) :
    Except Fault (α × List Char) := do
  let (name, rest) ← string expected cs
  match choices.lookup name with
  | some v => .ok (v, rest)
  | none   => mismatch (.unknownChoice name (choices.map Prod.fst)) rest

/-- Nothing, written as `null`. -/
def unit (cs : List Char) : Except Fault (List Char) :=
  match skipSpace cs with
  | 'n' :: cs => Token.word ['u', 'l', 'l'] cs
  | cs        => invalidType "unit" cs

/-- One of the named choices, as a string or as an object with the name and `null`. -/
def choice {α : Type} (choices : List (String × α)) (cs : List Char) :
    Except Fault (α × List Char) :=
  match skipSpace cs with
  | []        => failAt .eofInValue []
  | '"' :: cs => choiceName choices "variant identifier" ('"' :: cs)
  | '{' :: cs => do
    let (v, cs) ← choiceName choices "variant identifier" cs
    match skipSpace (← unit (← colon cs)) with
    | '}' :: cs => .ok (v, cs)
    | []        => failBefore .eofInObject []
    | cs        => failBefore .expectedValue cs
  | cs        => failAt .expectedValue cs

/-- The text behind the closing brace, if that is what comes next. -/
def pastBrace (cs : List Char) : List Char :=
  match skipSpace cs with
  | '}' :: cs => cs
  | cs        => cs

/-- The text behind the closing bracket or, before it, one comma, if that is what comes next. -/
def pastBracket (cs : List Char) : List Char :=
  match skipSpace cs with
  | ']' :: cs => cs
  | ',' :: cs => skipSpace cs
  | cs        => cs

/-- Looks for the next element of an array; `more` says that one has been read.  None before the
closing bracket. -/
def element? {α : Type} (reader : Reader α) (more : Bool) (cs : List Char) :
    Except Fault (Option α × List Char) :=
  let read (cs : List Char) : Except Fault (Option α × List Char) := do
    let (v, rest) ← reader cs
    .ok (some v, rest)
  match skipSpace cs, more with
  | [],        _     => failAt .eofInArray []
  | ']' :: cs, _     => .ok (none, ']' :: cs)
  | ',' :: cs, true  =>
    match skipSpace cs with
    | []        => failAt .eofInValue []
    | ']' :: cs => failAt .trailingComma (']' :: cs)
    | cs        => read cs
  | cs,        true  => failAt .expectedCommaOrBracket cs
  | cs,        false => read cs

/-- The text behind the closing bracket, which has to come next. -/
def closeBracket (cs : List Char) : Except Fault (List Char) :=
  match skipSpace cs with
  | []        => failAt .eofInArray []
  | ']' :: cs => .ok cs
  | ',' :: cs =>
    match skipSpace cs with
    | ']' :: cs => failAt .trailingComma (']' :: cs)
    | cs        => failAt .trailingCharacters cs
  | cs        => failAt .trailingCharacters cs

end Decoder

end NativeMessaging.Json
