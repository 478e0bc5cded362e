import NativeMessaging.Shell.Script

/-!
# Shell — Token

Cuts a script into tokens: words with their quoting resolved, operators, and redirections.
-/

namespace NativeMessaging.Shell

inductive Token where
  | word (pieces : Word)
  | operator (text : String)
  | redirect (channel : Nat) (sign : String)
  deriving DecidableEq, Repr

namespace Token

def isNameStart (c : Char) : Bool := c.isAlpha || c == '_'

def isNamePart (c : Char) : Bool := c.isAlphanum || c == '_'

/-- The parameters that are no names: the arguments and their count, the last status, and the numbers
of the script and of what it left running. -/
def isSpecial (c : Char) : Bool := c ∈ ['#', '?', '*', '$', '!'] || c.isDigit

/-- Ends a word that is not quoted. -/
def endsWord (c : Char) : Bool := c ∈ [' ', '\t', '\n', ';', '&', '|', '<', '>', '(', ')']

/-- Adds a character to the pieces of a word, the last piece first. -/
def pushChar (c : Char) (quoted : Bool) : List Piece → List Piece
  | .text t q :: ps =>
    if q = quoted then .text (t.push c) q :: ps else .text (c.toString) quoted :: .text t q :: ps
  | ps              => .text (c.toString) quoted :: ps

/-- The text up to the bracket that closes `depth` open ones, and what follows it; brackets in quotes
do not count. -/
def enclosed (opening closing : Char) :
    (depth : Nat) → (quote : Option Char) → List Char → List Char → Option (List Char × List Char)
  | _,     _,      _,    []       => none
  | depth, some q, seen, c :: cs =>
    enclosed opening closing depth (if c = q then none else some q) (c :: seen) cs
  | depth, none,   seen, c :: cs =>
    if c = closing then
      match depth with
      | 0         => some (seen.reverse, cs)
      | depth + 1 => enclosed opening closing depth none (c :: seen) cs
    else if c = opening then enclosed opening closing (depth + 1) none (c :: seen) cs
    else if c = '\'' ∨ c = '"' then enclosed opening closing depth (some c) (c :: seen) cs
    else enclosed opening closing depth none (c :: seen) cs

/-- What is made of a value, from the text behind the name of the parameter. -/
def variation : List Char → Variation
  | []               => .plain
  | ':' :: '-' :: cs => .orElse false true (String.ofList cs)
  | ':' :: '=' :: cs => .orElse true true (String.ofList cs)
  | ':' :: '+' :: cs => .ifGiven true (String.ofList cs)
  | '-' :: cs        => .orElse false false (String.ofList cs)
  | '=' :: cs        => .orElse true false (String.ofList cs)
  | '+' :: cs        => .ifGiven false (String.ofList cs)
  | '#' :: '#' :: cs => .withoutStart true (String.ofList cs)
  | '#' :: cs        => .withoutStart false (String.ofList cs)
  | '%' :: '%' :: cs => .withoutEnd true (String.ofList cs)
  | '%' :: cs        => .withoutEnd false (String.ofList cs)
  | _                => .plain

/-- The parameter that braces enclose. -/
def inBraces (quoted : Bool) (inner : List Char) : Piece :=
  match inner with
  | ['@']          => .arguments quoted
  | '#' :: c :: cs => .parameter (String.ofList (c :: cs)) .length quoted
  | inner          =>
    let name := inner.takeWhile isNamePart
    let name := if name.isEmpty then inner.take 1 else name
    .parameter (String.ofList name) (variation (inner.drop name.length)) quoted

/-- What parentheses enclose: a number in a second pair of them, or a script. -/
def inParentheses (quoted : Bool) (inner : List Char) : Piece :=
  if inner.head? = some '(' ∧ inner.getLast? = some ')' then
    .number (String.ofList inner.tail.dropLast) quoted
  else .output (String.ofList inner) quoted

/-- What follows a dollar sign; a sign that starts nothing stands for itself. -/
def afterDollar (quoted : Bool) : List Char → Option (Piece × List Char)
  | '@' :: cs    => some (.arguments quoted, cs)
  | '(' :: cs    => do
    let (inner, cs) ← enclosed '(' ')' 0 none [] cs
    some (inParentheses quoted inner, cs)
  | '\x7b' :: cs => do
    let (inner, cs) ← enclosed '\x7b' '\x7d' 0 none [] cs
    some (inBraces quoted inner, cs)
  | c :: cs      =>
    if isSpecial c then some (.parameter c.toString .plain quoted, cs)
    else if isNameStart c then
      let name := (c :: cs).takeWhile isNamePart
      some (.parameter (String.ofList name) .plain quoted, (c :: cs).drop name.length)
    else some (.text "$" quoted, c :: cs)
  | []           => some (.text "$" quoted, [])

/-- A script in backquotes, behind the first of them. -/
def afterBackquote (quoted : Bool) (cs : List Char) : Option (Piece × List Char) :=
  let inner := cs.takeWhile (· != '\x60')
  if inner.length = cs.length then none
  else some (.output (String.ofList inner) quoted, cs.drop (inner.length + 1))

/-- What stands in double quotes, up to the closing one. -/
def readQuoted : (fuel : Nat) → List Piece → List Char → Option (List Piece × List Char)
  | 0,        _,      _       => none
  | _,        _,      []      => none
  | fuel + 1, pieces, c :: cs =>
    match c, cs with
    | '"',  cs         => some (pieces, cs)
    | '\\', '\n' :: cs => readQuoted fuel pieces cs
    | '\\', d :: cs    =>
      if d ∈ ['$', '\x60', '"', '\\'] then readQuoted fuel (pushChar d true pieces) cs
      else readQuoted fuel (pushChar d true (pushChar '\\' true pieces)) cs
    | '$',  cs         => do
      let (piece, cs) ← afterDollar true cs
      readQuoted fuel (piece :: pieces) cs
    | '\x60', cs       => do
      let (piece, cs) ← afterBackquote true cs
      readQuoted fuel (piece :: pieces) cs
    | c,    cs         => readQuoted fuel (pushChar c true pieces) cs

/-- A word, up to a character that ends it. -/
def readWord (ends : Char → Bool) :
    (fuel : Nat) → List Piece → List Char → Option (Word × List Char)
  | 0,        _,      _       => none
  | _,        pieces, []      => some (pieces.reverse, [])
  | fuel + 1, pieces, c :: cs =>
    if ends c then some (pieces.reverse, c :: cs)
    else
      match c, cs with
      | '\'', cs         =>
        let text := cs.takeWhile (· != '\'')
        if text.length = cs.length then none
        else readWord ends fuel (.text (String.ofList text) true :: pieces) (cs.drop (text.length + 1))
      | '"',  cs         => do
        let (pieces, cs) ← readQuoted fuel (.text "" true :: pieces) cs
        readWord ends fuel pieces cs
      | '\\', '\n' :: cs => readWord ends fuel pieces cs
      | '\\', d :: cs    => readWord ends fuel (pushChar d true pieces) cs
      | '$',  cs         => do
        let (piece, cs) ← afterDollar false cs
        readWord ends fuel (piece :: pieces) cs
      | '\x60', cs       => do
        let (piece, cs) ← afterBackquote false cs
        readWord ends fuel (piece :: pieces) cs
      | c,    cs         => readWord ends fuel (pushChar c false pieces) cs

/-- A whole text as a word. -/
def wordOf (text : String) : Option Word := do
  some (← readWord (fun _ => false) (text.length + 2) [] text.toList).1

/-- The longest operator at the start. -/
def operator? : List Char → Option (String × List Char)
  | '\n' :: cs        => some (";", cs)
  | ';' :: ';' :: cs  => some (";;", cs)
  | '&' :: '&' :: cs  => some ("&&", cs)
  | '|' :: '|' :: cs  => some ("||", cs)
  | ';' :: cs         => some (";", cs)
  | '&' :: cs         => some ("&", cs)
  | '|' :: cs         => some ("|", cs)
  | '(' :: cs         => some ("(", cs)
  | ')' :: cs         => some (")", cs)
  | _                 => none

/-- The sign of a redirection at the start, and the channel that it leads elsewhere by itself. -/
def redirect? : List Char → Option (Nat × String × List Char)
  | '<' :: '&' :: cs => some (0, "&", cs)
  | '>' :: '&' :: cs => some (1, "&", cs)
  | '>' :: '>' :: cs => some (1, ">", cs)
  | '<' :: cs        => some (0, "<", cs)
  | '>' :: cs        => some (1, ">", cs)
  | _                => none

/-- A redirection at the start, with the number of the channel before it if there is one. -/
def redirection? : List Char → Option (Token × List Char)
  | c :: cs => do
    if c.isDigit then
      let (_, sign, cs) ← redirect? cs
      some (.redirect (c.toNat - '0'.toNat) sign, cs)
    else
      let (channel, sign, cs) ← redirect? (c :: cs)
      some (.redirect channel sign, cs)
  | []      => none

/-- Cuts a script; a line feed separates commands as a semicolon does. -/
def cut : (fuel : Nat) → List Token → List Char → Option (List Token)
  | 0,        _,      _       => none
  | _,        tokens, []      => some tokens.reverse
  | fuel + 1, tokens, c :: cs =>
    if c == ' ' || c == '\t' then cut fuel tokens cs
    else if c == '#' then cut fuel tokens (cs.dropWhile (· != '\n'))
    else
      match redirection? (c :: cs) with
      | some (token, cs) => cut fuel (token :: tokens) cs
      | none             =>
        match operator? (c :: cs) with
        | some (text, cs) => cut fuel (.operator text :: tokens) cs
        | none            => do
          let (pieces, cs) ← readWord endsWord (cs.length + 2) [] (c :: cs)
          cut fuel (.word pieces :: tokens) cs

/-- The tokens of a script, if its quotes are closed. -/
def ofScript (script : String) : Option (List Token) :=
  cut (script.toList.length + 1) [] script.toList

end Token

end NativeMessaging.Shell
