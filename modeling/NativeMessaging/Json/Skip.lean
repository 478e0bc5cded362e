import NativeMessaging.Json.Reader

/-!
# Json — Skip

Passes over a value that nobody asked for.  Its nesting has no limit, and its strings and numbers are
only followed to their ends: a number may be too large, and an escape may name half a character.
-/

namespace NativeMessaging.Json.Skip

open Token (skipSpace skipDigits startsWithDigit)

/-- How many characters an escape takes after the backslash. -/
def escaped : List Char → Except Fault Nat
  | []      => failBefore .eofInString []
  | c :: cs =>
    if c ∈ ['"', '\\', '/', 'b', 'f', 'n', 'r', 't'] then .ok 1
    else if c = 'u' then do
      let _ ← Token.hexUnit cs
      .ok 5
    else failAt .invalidEscape (c :: cs)

/-- The text behind a string, from behind its opening quotation mark; the next `skip` characters
belong to an escape. -/
def stringBody : (skip : Nat) → List Char → Except Fault (List Char)
  | _,        []      => failBefore .eofInString []
  | skip + 1, _ :: cs => stringBody skip cs
  | 0,        c :: cs =>
    if c = '"' then .ok cs
    else if c = '\\' then
      match escaped cs with
      | .ok taken    => stringBody taken cs
      | .error fault => .error fault
    else if c < ' ' then failBefore .controlCharacter (c :: cs)
    else stringBody 0 cs

/-- The text behind an exponent, from behind its letter. -/
def exponent (cs : List Char) : Except Fault (List Char) :=
  let digits : List Char :=
    match cs with
    | '+' :: cs => cs
    | '-' :: cs => cs
    | cs        => cs
  if startsWithDigit digits then .ok (skipDigits digits) else failAt .invalidNumber digits

/-- The text behind an exponent, if there is one. -/
def exponent? : List Char → Except Fault (List Char)
  | 'e' :: cs => exponent cs
  | 'E' :: cs => exponent cs
  | cs        => .ok cs

/-- The text behind a number, from behind its sign. -/
def number : List Char → Except Fault (List Char)
  | []      => failAt .invalidNumber []
  | c :: cs =>
    if !c.isDigit then failAt .invalidNumber (c :: cs)
    else if c = '0' ∧ startsWithDigit cs then failAt .invalidNumber cs
    else
      match skipDigits cs with
      | '.' :: cs =>
        if startsWithDigit cs then exponent? (skipDigits cs) else failAt .invalidNumber cs
      | cs        => exponent? cs

inductive Bracket where
  | list
  | object
  deriving DecidableEq, Repr

/-- The value is cut short inside such a bracket. -/
def Bracket.eof : Bracket → Cause
  | .list   => .eofInArray
  | .object => .eofInObject

/-- Something else stands where a comma or the closing bracket should. -/
def Bracket.missingComma : Bracket → Cause
  | .list   => .expectedCommaOrBracket
  | .object => .expectedCommaOrBrace

/-- What comes next: a value, the first element of the innermost bracket, or what follows an
element of it. -/
inductive Place where
  | value
  | first
  | next
  deriving DecidableEq, Repr

/-- The text behind the name of a member and its colon, if the bracket is one of members. -/
def memberName : Bracket → List Char → Except Fault (List Char)
  | .list,   cs => .ok cs
  | .object, cs =>
    match skipSpace cs with
    | []        => failAt .eofInObject []
    | '"' :: cs => do colon (← stringBody 0 cs)
    | cs        => failAt .nameNotString cs

/-- The closing bracket at the start of the text, if it is there. -/
def close? : Bracket → List Char → Option (List Char)
  | .list,   ']' :: cs => some cs
  | .object, '}' :: cs => some cs
  | _,       _         => none

/-- The text behind a scalar, or the bracket that opens and the text behind it. -/
def start (cs : List Char) : Except Fault (Option Bracket × List Char) :=
  match skipSpace cs with
  | []        => failAt .eofInValue []
  | 'n' :: cs => do .ok (none, ← Token.word ['u', 'l', 'l'] cs)
  | 't' :: cs => do .ok (none, ← Token.word ['r', 'u', 'e'] cs)
  | 'f' :: cs => do .ok (none, ← Token.word ['a', 'l', 's', 'e'] cs)
  | '"' :: cs => do .ok (none, ← stringBody 0 cs)
  | '-' :: cs => do .ok (none, ← number cs)
  | '[' :: cs => .ok (some .list, cs)
  | '{' :: cs => .ok (some .object, cs)
  | c :: cs   =>
    if c.isDigit then do .ok (none, ← number (c :: cs)) else failAt .expectedValue (c :: cs)

/-- Passes over the rest of a value inside the open brackets, the innermost first.  Two rounds take
at least one character. -/
def run : (rounds : Nat) → Place → List Bracket → List Char → Except Fault (List Char)
  | 0,          _,      _,              cs => failAt .eofInValue cs
  | rounds + 1, .value, brackets,       cs => do
    match ← start cs with
    | (none, cs)   => run rounds .next brackets cs
    | (some b, cs) => run rounds .first (b :: brackets) cs
  | _ + 1,      _,      [],             cs => .ok cs
  | rounds + 1, place,  b :: brackets,  cs =>
    let cs := skipSpace cs
    match close? b cs with
    | some rest => run rounds .next brackets rest
    | none      =>
      match place, cs with
      | _,     []        => failAt b.eof []
      | .next, ',' :: cs => do run rounds .value (b :: brackets) (← memberName b cs)
      | .next, cs        => failAt b.missingComma cs
      | _,     cs        => do run rounds .value (b :: brackets) (← memberName b cs)

/-- The text behind a value. -/
def value (rounds : Nat) (cs : List Char) : Except Fault (List Char) :=
  run (2 * rounds) .value [] cs

end NativeMessaging.Json.Skip
