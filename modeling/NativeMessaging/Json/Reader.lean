import NativeMessaging.Json.Token

/-!
# Json — Reader

Reads a JSON value from a text.  Arrays and objects may be nested to a depth of 127; `parse` reads a
whole text and says where it stops being JSON.
-/

namespace NativeMessaging.Json

open Token (skipSpace stringBody)

/-- Reads what stands between the brackets of an array, and its closing bracket.  `more` says that an
element has been read; every round of the loop takes at least one character, so a text's length
bounds the rounds. -/
def readItems (element : Reader Json) :
    (rounds : Nat) → (more : Bool) → (acc : List Json) → Reader (List Json)
  | 0,          _,    _,   cs => failAt .eofInArray cs
  | rounds + 1, more, acc, cs =>
    match skipSpace cs, more with
    | [],         _     => failAt .eofInArray []
    | ']' :: cs,  _     => .ok (acc.reverse, cs)
    | ',' :: cs,  true  =>
      match skipSpace cs with
      | []         => failAt .eofInValue []
      | ']' :: cs  => failAt .trailingComma (']' :: cs)
      | cs         => do
        let (v, cs) ← element cs
        readItems element rounds true (v :: acc) cs
    | cs,         true  => failAt .expectedCommaOrBracket cs
    | cs,         false => do
      let (v, cs) ← element cs
      readItems element rounds true (v :: acc) cs

/-- The text behind the colon between a name and its value. -/
def colon (cs : List Char) : Except Fault (List Char) :=
  match skipSpace cs with
  | []        => failAt .eofInObject []
  | ':' :: cs => .ok cs
  | cs        => failAt .expectedColon cs

/-- Where a member of an object may start: the text behind the quotation mark of its name, or
behind the closing brace. -/
inductive MemberStart where
  | name (rest : List Char)
  | close (rest : List Char)

/-- Looks for the next member of an object; `more` says that one has been read, so that a comma has
to stand between. -/
def memberStart (more : Bool) (cs : List Char) : Except Fault MemberStart :=
  match skipSpace cs, more with
  | [],        _     => failAt .eofInObject []
  | '}' :: cs, _     => .ok (.close cs)
  | '"' :: cs, false => .ok (.name cs)
  | cs,        false => failAt .nameNotString cs
  | ',' :: cs, true  =>
    match skipSpace cs with
    | []        => failAt .eofInValue []
    | '"' :: cs => .ok (.name cs)
    | '}' :: cs => failAt .trailingComma ('}' :: cs)
    | cs        => failAt .nameNotString cs
  | cs,        true  => failAt .expectedCommaOrBrace cs

/-- Reads what stands between the braces of an object, and its closing brace. -/
def readMembers (element : Reader Json) :
    (rounds : Nat) → (more : Bool) → (acc : List (String × Json)) → Reader (List (String × Json))
  | 0,          _,    _,   cs => failAt .eofInObject cs
  | rounds + 1, more, acc, cs => do
    match ← memberStart more cs with
    | .close cs => .ok (acc.reverse, cs)
    | .name cs  =>
      let (name, cs) ← stringBody [] 0 cs
      let (v, cs) ← element (← colon cs)
      readMembers element rounds true ((name, v) :: acc) cs

/-- Reads a value, with that many levels of nesting left; `rounds` bounds the elements of an array or
an object. -/
def readValue (rounds : Nat) : (depth : Nat) → Reader Json
  | depth, cs =>
    match skipSpace cs with
    | []        => failAt .eofInValue []
    | 'n' :: cs => do .ok (.null, ← Token.word ['u', 'l', 'l'] cs)
    | 't' :: cs => do .ok (.bool true, ← Token.word ['r', 'u', 'e'] cs)
    | 'f' :: cs => do .ok (.bool false, ← Token.word ['a', 'l', 's', 'e'] cs)
    | '"' :: cs => do
      let (s, cs) ← stringBody [] 0 cs
      .ok (.string s, cs)
    | '-' :: cs => do
      let (n, cs) ← Token.number true cs
      .ok (.number n, cs)
    | '[' :: cs =>
      match depth with
      | 0         => failAt .nestedTooDeep ('[' :: cs)
      | depth + 1 => do
        let (items, cs) ← readItems (readValue rounds depth) rounds false [] cs
        .ok (.array items, cs)
    | '{' :: cs =>
      match depth with
      | 0         => failAt .nestedTooDeep ('{' :: cs)
      | depth + 1 => do
        let (members, cs) ← readMembers (readValue rounds depth) rounds false [] cs
        .ok (.object members, cs)
    | c :: cs   =>
      if c.isDigit then do
        let (n, cs) ← Token.number false (c :: cs)
        .ok (.number n, cs)
      else failAt .expectedValue (c :: cs)

/-- How deep arrays and objects may be nested. -/
def maxDepth : Nat := 127

/-- Nothing but blanks may follow. -/
def finish (cs : List Char) : Except Fault Unit :=
  match skipSpace cs with
  | [] => .ok ()
  | cs => failAt .trailingCharacters cs

/-- Reads a whole text with a reader of its start. -/
def readAll {α : Type} (reader : (rounds : Nat) → Reader α) (s : String) :
    Except Error α :=
  let text := s.toList
  let outcome := do
    let (v, rest) ← reader (text.length + 1) text
    finish rest
    .ok v
  outcome.mapError (·.locate text)

/-- The value that a text spells. -/
def parse (s : String) : Except Error Json :=
  readAll (fun rounds => readValue rounds maxDepth) s

end NativeMessaging.Json
