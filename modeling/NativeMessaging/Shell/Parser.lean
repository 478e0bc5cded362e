import NativeMessaging.Shell.Token

/-!
# Shell — Parser

Reads the tokens of a script as commands.  A list of commands ends at a word or an operator that
closes what it stands in.
-/

namespace NativeMessaging.Shell

namespace Parser

/-- The words that close a list of commands. -/
def closers : List String := ["then", "elif", "else", "fi", "do", "done", "esac", "\x7d"]

/-- The plain text of a word, if nothing in it is quoted or expanded. -/
def plain? : Word → Option String
  | [.text t false] => some t
  | _               => none

/-- The reserved word or operator at the start. -/
def keyword? : List Token → Option String
  | .word w :: _     => plain? w
  | .operator o :: _ => some o
  | _                => none

/-- Drops a reserved word or operator that must be there. -/
def expect (text : String) (tokens : List Token) : Option (List Token) :=
  if keyword? tokens = some text then some tokens.tail else none

/-- Drops the separators at the start. -/
def skipSeparators (tokens : List Token) : List Token :=
  tokens.dropWhile (· == .operator ";")

/-- The name and the value of a word that assigns. -/
def assignment? : Word → Option (String × Word)
  | .text t false :: ps =>
    let cs := t.toList
    let name := cs.takeWhile Token.isNamePart
    if (name.head?.any Token.isNameStart) && (cs.drop name.length).head? == some '=' then
      let rest := String.ofList (cs.drop (name.length + 1))
      some (String.ofList name, if rest.isEmpty then ps else .text rest false :: ps)
    else none
  | _                   => none

/-- Where a redirection leads, from its sign and the word after it. -/
def targetOf (sign : String) (w : Word) : Option Target :=
  if sign = "&" then
    match plain? w with
    | some "-" => some .closed
    | some t   => .channel <$> t.toNat?
    | none     => none
  else some (.file w)

/-- The redirections at the start. -/
def redirections : List Token → List Redirection × List Token
  | .redirect channel sign :: .word w :: tokens =>
    match targetOf sign w with
    | some target =>
      let (more, tokens) := redirections tokens
      (⟨channel, target⟩ :: more, tokens)
    | none        => ([], .redirect channel sign :: .word w :: tokens)
  | tokens => ([], tokens)

/-- Puts redirections around a command, if there are any. -/
def redirecting (command : Command) : List Redirection → Command
  | [] => command
  | rs => .redirected command rs

/-- The words and redirections of a simple command. -/
def simpleParts : List Token → List Word × List Redirection × List Token
  | .word w :: tokens =>
    let (ws, rs, tokens) := simpleParts tokens
    (w :: ws, rs, tokens)
  | .redirect channel sign :: .word w :: tokens =>
    match targetOf sign w with
    | some target =>
      let (ws, rs, tokens) := simpleParts tokens
      (ws, ⟨channel, target⟩ :: rs, tokens)
    | none        => ([], [], .redirect channel sign :: .word w :: tokens)
  | tokens => ([], [], tokens)

/-- The assignments before the words of a command. -/
def assignments : List Word → List (String × Word) × List Word
  | []      => ([], [])
  | w :: ws =>
    match assignment? w with
    | some a =>
      let (more, ws) := assignments ws
      (a :: more, ws)
    | none   => ([], w :: ws)

/-- A command made of words. -/
def simple (tokens : List Token) : Option (Command × List Token) :=
  let (words, rs, rest) := simpleParts tokens
  if words.isEmpty && rs.isEmpty then none
  else
    let (as, words) := assignments words
    some (redirecting (.simple as words) rs, rest)

/-- The patterns of an arm, up to its parenthesis. -/
def patterns : List Token → Option (List Word × List Token)
  | .operator "(" :: .word w :: .operator ")" :: tokens => some ([w], tokens)
  | .word w :: .operator ")" :: tokens                  => some ([w], tokens)
  | .word w :: .operator "|" :: tokens                  => do
    let (ws, tokens) ← patterns tokens
    some (w :: ws, tokens)
  | _                                                   => none

/-- The words of a loop over words. -/
def loopWords : List Token → List Word × List Token
  | .word w :: tokens =>
    let (ws, tokens) := loopWords tokens
    (w :: ws, tokens)
  | tokens            => ([], tokens)

mutual

/-- Commands up to the end or to what closes them. -/
def commands : (fuel : Nat) → List Token → Option (Command × List Token)
  | 0,        _      => none
  | fuel + 1, tokens =>
    let tokens := skipSeparators tokens
    match keyword? tokens with
    | none    => if tokens.isEmpty then some (.nothing, []) else commandsFrom fuel tokens
    | some k  =>
      if k ∈ closers || k = ")" || k = ";;" then some (.nothing, tokens)
      else commandsFrom fuel tokens

/-- A command and those behind it. -/
def commandsFrom : (fuel : Nat) → List Token → Option (Command × List Token)
  | 0,        _      => none
  | fuel + 1, tokens => do
    let (first, tokens) ← chain fuel tokens
    match tokens with
    | .operator "&" :: tokens =>
      let (rest, tokens) ← commands fuel tokens
      some (.sequence (.background first) rest, tokens)
    | .operator ";" :: tokens =>
      let (rest, tokens) ← commands fuel tokens
      some (.sequence first rest, tokens)
    | tokens                  => some (first, tokens)

/-- Pipelines joined by conditions, the first ones first. -/
def chain : (fuel : Nat) → List Token → Option (Command × List Token)
  | 0,        _      => none
  | fuel + 1, tokens => do
    let (first, tokens) ← pipeline fuel tokens
    chainFrom fuel first tokens

def chainFrom : (fuel : Nat) → Command → List Token → Option (Command × List Token)
  | 0,        _,     _      => none
  | fuel + 1, first, tokens =>
    match tokens with
    | .operator "&&" :: tokens => do
      let (second, tokens) ← pipeline fuel (skipSeparators tokens)
      chainFrom fuel (.both first second) tokens
    | .operator "||" :: tokens => do
      let (second, tokens) ← pipeline fuel (skipSeparators tokens)
      chainFrom fuel (.either first second) tokens
    | tokens                   => some (first, tokens)

/-- Commands joined by pipes. -/
def pipeline : (fuel : Nat) → List Token → Option (Command × List Token)
  | 0,        _      => none
  | fuel + 1, tokens => do
    if keyword? tokens = some "!" then
      let (command, tokens) ← pipeline fuel tokens.tail
      some (.negated command, tokens)
    else
      let (first, tokens) ← command fuel tokens
      match tokens with
      | .operator "|" :: tokens =>
        let (rest, tokens) ← pipeline fuel (skipSeparators tokens)
        some (.pipe first rest, tokens)
      | tokens                  => some (first, tokens)

/-- One command. -/
def command : (fuel : Nat) → List Token → Option (Command × List Token)
  | 0,        _      => none
  | fuel + 1, tokens =>
    let compound (read : Option (Command × List Token)) : Option (Command × List Token) := do
      let (c, tokens) ← read
      let (rs, tokens) := redirections tokens
      some (redirecting c rs, tokens)
    match keyword? tokens with
    | some "while" => compound (loop fuel true tokens.tail)
    | some "until" => compound (loop fuel false tokens.tail)
    | some "if"    => compound (condition fuel tokens.tail)
    | some "for"   => compound (forEach fuel tokens.tail)
    | some "case"  => compound (select fuel tokens.tail)
    | some "\x7b"  => compound do
      let (c, tokens) ← commands fuel tokens.tail
      some (c, ← expect "\x7d" tokens)
    | some "("     => compound do
      let (c, tokens) ← commands fuel tokens.tail
      some (.subshell c, ← expect ")" tokens)
    | _            =>
      match tokens with
      | .word w :: .operator "(" :: .operator ")" :: tokens => do
        let name ← plain? w
        let (body, tokens) ← command fuel (skipSeparators tokens)
        some (.define name body, tokens)
      | tokens                                              => simple tokens

def loop : (fuel : Nat) → Bool → List Token → Option (Command × List Token)
  | 0,        _,        _      => none
  | fuel + 1, expected, tokens => do
    let (condition, tokens) ← commands fuel tokens
    let (body, tokens) ← commands fuel (← expect "do" tokens)
    some (.loop condition expected body, ← expect "done" tokens)

def condition : (fuel : Nat) → List Token → Option (Command × List Token)
  | 0,        _      => none
  | fuel + 1, tokens => do
    let (c, tokens) ← commands fuel tokens
    let (thenBranch, tokens) ← commands fuel (← expect "then" tokens)
    match keyword? tokens with
    | some "elif" =>
      let (elseBranch, tokens) ← condition fuel tokens.tail
      some (.choice c thenBranch elseBranch, tokens)
    | some "else" =>
      let (elseBranch, tokens) ← commands fuel tokens.tail
      some (.choice c thenBranch elseBranch, ← expect "fi" tokens)
    | _           => some (.choice c thenBranch .nothing, ← expect "fi" tokens)

def forEach : (fuel : Nat) → List Token → Option (Command × List Token)
  | 0,        _      => none
  | fuel + 1, tokens => do
    let name ← keyword? tokens
    let (words, tokens) :=
      if keyword? tokens.tail = some "in" then loopWords tokens.tail.tail
      else ([[.arguments true]], tokens.tail)
    let (body, tokens) ← commands fuel (← expect "do" (skipSeparators tokens))
    some (.forEach name words body, ← expect "done" tokens)

def select : (fuel : Nat) → List Token → Option (Command × List Token)
  | 0,        _      => none
  | fuel + 1, tokens =>
    match tokens with
    | .word subject :: tokens => do
      let (as, tokens) ← arms fuel (skipSeparators (← expect "in" (skipSeparators tokens)))
      some (.select subject as, tokens)
    | _                       => none

/-- The arms of a selection and its end. -/
def arms : (fuel : Nat) → List Token → Option (List (List Word × Command) × List Token)
  | 0,        _      => none
  | fuel + 1, tokens =>
    if keyword? tokens = some "esac" then some ([], tokens.tail)
    else do
      let (ws, tokens) ← patterns tokens
      let (body, tokens) ← commands fuel tokens
      let tokens := match tokens with
        | .operator ";;" :: tokens => tokens
        | tokens                   => tokens
      let (more, tokens) ← arms fuel (skipSeparators tokens)
      some ((ws, body) :: more, tokens)

end

end Parser

/-- The command that a script says, if it says one. -/
def Command.parse (script : String) : Option Command := do
  let tokens ← Token.ofScript script
  let (command, rest) ← Parser.commands (20 * tokens.length + 20) tokens
  if rest.isEmpty then some command else none

end NativeMessaging.Shell
