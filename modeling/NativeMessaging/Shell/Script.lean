/-!
# Shell — Script

What a script of the shell says: commands made of words, and words made of pieces that stand for
text only when the script runs.
-/

namespace NativeMessaging.Shell

/-- What is made of the value of a parameter: itself, or its length; a word in its place where it is
missing, which may be assigned, or where it is there, an empty one perhaps counting as missing; or what
is left without the shortest or the longest match of a pattern at its start or end. -/
inductive Variation where
  | plain
  | length
  | orElse (assigns emptyCounts : Bool) (word : String)
  | ifGiven (emptyCounts : Bool) (word : String)
  | withoutStart (longest : Bool) (pattern : String)
  | withoutEnd (longest : Bool) (pattern : String)
  deriving DecidableEq, Repr

/-- A piece of a word.  What a piece that is not quoted stands for is split at blanks. -/
inductive Piece where
  | text (text : String) (quoted : Bool)
  | parameter (name : String) (variation : Variation) (quoted : Bool)
  | arguments (quoted : Bool)
  | output (script : String) (quoted : Bool)
  | number (text : String) (quoted : Bool)
  deriving DecidableEq, Repr

abbrev Word := List Piece

/-- Where a channel of a command leads instead. -/
inductive Target where
  | closed
  | channel (number : Nat)
  | file (name : Word)
  deriving DecidableEq, Repr

/-- Leads a channel elsewhere: 0 is the input, 1 the output and 2 the errors. -/
structure Redirection where
  channel : Nat
  target : Target
  deriving DecidableEq, Repr

inductive Command where
  | nothing
  | simple (assignments : List (String × Word)) (words : List Word)
  | redirected (command : Command) (redirections : List Redirection)
  | pipe (first second : Command)
  | sequence (first second : Command)
  | both (first second : Command)
  | either (first second : Command)
  | negated (command : Command)
  | background (command : Command)
  | subshell (command : Command)
  | loop (condition : Command) (expected : Bool) (body : Command)
  | forEach (name : String) (words : List Word) (body : Command)
  | choice (condition thenBranch elseBranch : Command)
  | select (subject : Word) (arms : List (List Word × Command))
  | define (name : String) (body : Command)

end NativeMessaging.Shell
