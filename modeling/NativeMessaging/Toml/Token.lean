import NativeMessaging.Toml.Value

/-!
# Toml — Token

The smallest parts of a TOML document, each read from the start of the rest of the text: blanks,
comments, line ends, keys and strings.  Readers give none where the text is not TOML.
-/

namespace NativeMessaging.Toml

/-- Reads a value from the start of a text and gives the rest of the text with it. -/
abbrev Reader (α : Type) := List Char → Option (α × List Char)

namespace Token

/-! ### Blanks, comments and line ends -/

/-- The blanks within a line. -/
def isSpace (c : Char) : Bool := c == ' ' || c == '\t'

/-- The text behind the blanks at its start. -/
def skipSpace (cs : List Char) : List Char := cs.dropWhile isSpace

/-- No control character other than the tabulator. -/
def isPlain (c : Char) : Bool := c == '\t' || (' ' ≤ c && c != '\x7f')

/-- The text behind a line end. -/
def newline : List Char → Option (List Char)
  | '\n' :: cs         => some cs
  | '\r' :: '\n' :: cs => some cs
  | _                  => none

/-- The text behind a comment, if one starts here. -/
def skipComment : List Char → List Char
  | '#' :: cs => cs.dropWhile isPlain
  | cs        => cs

/-- The text behind what may follow on a line: blanks, a comment, and the line end unless the text
ends there. -/
def lineEnd (cs : List Char) : Option (List Char) :=
  match skipComment (skipSpace cs) with
  | [] => some []
  | cs => newline cs

/-- The text behind blanks, line ends and whole lines of comment; every round takes at least one
character. -/
def skipLines : (rounds : Nat) → List Char → Option (List Char)
  | 0,          cs => some cs
  | rounds + 1, cs =>
    match skipSpace cs with
    | '#' :: cs =>
      match skipComment ('#' :: cs) with
      | [] => some []
      | cs => do skipLines rounds (← newline cs)
    | cs        =>
      match newline cs with
      | some rest => skipLines rounds rest
      | none      => some cs

/-! ### Strings -/

/-- The value of a hexadecimal digit of either case. -/
def hexValue? (c : Char) : Option Nat :=
  if '0' ≤ c ∧ c ≤ '9' then some (c.toNat - '0'.toNat)
  else if 'a' ≤ c ∧ c ≤ 'f' then some (c.toNat - 'a'.toNat + 10)
  else if 'A' ≤ c ∧ c ≤ 'F' then some (c.toNat - 'A'.toNat + 10)
  else none

/-- The character whose number the first `n` characters spell. -/
def numbered (n : Nat) (cs : List Char) : Option Char := do
  let digits ← (cs.take n).mapM hexValue?
  let code := digits.foldl (fun code d => code * 16 + d) 0
  if digits.length = n ∧ code.isValidChar then some (Char.ofNat code) else none

/-- The character that an escape stands for, and how many characters it takes after the
backslash. -/
def escaped : List Char → Option (Char × Nat)
  | 'b' :: _  => some ('\x08', 1)
  | 't' :: _  => some ('\t', 1)
  | 'n' :: _  => some ('\n', 1)
  | 'f' :: _  => some ('\x0c', 1)
  | 'r' :: _  => some ('\r', 1)
  | '"' :: _  => some ('"', 1)
  | '\\' :: _ => some ('\\', 1)
  | 'u' :: cs => do some (← numbered 4 cs, 5)
  | 'U' :: cs => do some (← numbered 8 cs, 9)
  | _         => none

/-- How many blanks and line ends stand behind a backslash that ends its line. -/
def lineBreakLength (cs : List Char) : Option Nat := do
  let blanks := cs.takeWhile isSpace
  let rest ← newline (cs.drop blanks.length)
  let rec further : (length : Nat) → (returned : Bool) → List Char → Nat
    | length, _,     []      => length
    | length, true,  c :: cs => if c = '\n' then further (length + 2) false cs else length
    | length, false, c :: cs =>
      if isSpace c ∨ c = '\n' then further (length + 1) false cs
      else if c = '\r' then further length true cs
      else length
  some (further (cs.length - rest.length) false rest)

/-- Reads a string behind its opening quotation mark; `quote` ends it, and only the double one
allows escapes.  The next `skip` characters belong to an escape. -/
def lineString (quote : Char) (acc : List Char) : (skip : Nat) → Reader String
  | _,        []      => none
  | skip + 1, _ :: cs => lineString quote acc skip cs
  | 0,        c :: cs =>
    if c = quote then some (String.ofList acc.reverse, cs)
    else if c = '\\' ∧ quote = '"' then
      match escaped cs with
      | some (d, taken) => lineString quote (d :: acc) taken cs
      | none            => none
    else if isPlain c then lineString quote (c :: acc) 0 cs
    else none

/-- Reads a string of several lines behind its opening quotation marks.  Of three to five quotation
marks in a row the last three end it. -/
def linesString (quote : Char) (acc : List Char) : (skip : Nat) → Reader String
  | _,        []      => none
  | skip + 1, _ :: cs => linesString quote acc skip cs
  | 0,        c :: cs =>
    if c = quote then
      let run := (cs.takeWhile (· == quote)).length + 1
      if run < 3 then linesString quote (c :: acc) 0 cs
      else
        let kept := min (run - 3) 2
        some (String.ofList (List.replicate kept quote ++ acc).reverse, cs.drop (kept + 2))
    else if c = '\\' ∧ quote = '"' then
      match lineBreakLength cs with
      | some length => linesString quote acc length cs
      | none        =>
        match escaped cs with
        | some (d, taken) => linesString quote (d :: acc) taken cs
        | none            => none
    else if c = '\n' then linesString quote (c :: acc) 0 cs
    else if c = '\r' then
      match cs with
      | '\n' :: _ => linesString quote ('\n' :: acc) 1 cs
      | _         => none
    else if isPlain c then linesString quote (c :: acc) 0 cs
    else none

/-- The text behind a line end, if one comes next. -/
def skipNewline (cs : List Char) : List Char := (newline cs).getD cs

/-- Reads a string of either form with that quotation mark, from behind the first one. -/
def string (quote : Char) (cs : List Char) : Option (String × List Char) :=
  match cs with
  | c :: d :: rest =>
    if c = quote ∧ d = quote then linesString quote [] 0 (skipNewline rest)
    else lineString quote [] 0 cs
  | cs => lineString quote [] 0 cs

/-! ### Keys -/

/-- The characters of a key without quotation marks. -/
def isBare (c : Char) : Bool := c.isAlphanum || c == '-' || c == '_'

/-- Reads one part of a key. -/
def keyPart (cs : List Char) : Option (String × List Char) :=
  match cs with
  | '"' :: cs  => lineString '"' [] 0 cs
  | '\'' :: cs => lineString '\'' [] 0 cs
  | cs         =>
    let bare := cs.takeWhile isBare
    if bare.isEmpty then none else some (String.ofList bare, cs.dropWhile isBare)

/-- The most parts that a key may have. -/
def maxKeyParts : Nat := 79

/-- Reads the parts of a key, blanks around each of them and points between them. -/
def keyParts : (left : Nat) → (acc : List String) → Reader (List String)
  | 0,        _,   _  => none
  | left + 1, acc, cs => do
    let (part, rest) ← keyPart (skipSpace cs)
    match skipSpace rest with
    | '.' :: rest => keyParts left (part :: acc) rest
    | rest        => some ((part :: acc).reverse, rest)

/-- Reads a key. -/
def key : Reader (List String) := keyParts maxKeyParts []

end Token

end NativeMessaging.Toml
