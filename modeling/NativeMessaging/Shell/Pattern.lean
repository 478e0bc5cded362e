/-!
# Shell — Pattern

Patterns for whole words: a star stands for any characters, a question mark for one, and brackets for
one of those they enclose.
-/

namespace NativeMessaging.Shell

/-- A class of characters: those in some range, or those in none. -/
structure CharClass where
  negated : Bool
  ranges : List (Char × Char)
  deriving DecidableEq, Repr

namespace CharClass

def contains (s : CharClass) (c : Char) : Bool :=
  s.negated != s.ranges.any fun (low, high) => decide (low ≤ c) && decide (c ≤ high)

/-- The ranges up to the closing bracket; a bracket that comes first closes nothing. -/
def readRanges : (fuel : Nat) → (first : Bool) → List Char →
    Option (List (Char × Char) × List Char)
  | 0,        _,     _       => none
  | _,        _,     []      => none
  | fuel + 1, first, c :: cs =>
    if c = ']' && !first then some ([], cs)
    else
      match cs with
      | '-' :: d :: cs' =>
        if d = ']' then do
          let (ranges, cs) ← readRanges fuel false cs
          some ((c, c) :: ranges, cs)
        else do
          let (ranges, cs) ← readRanges fuel false cs'
          some ((c, d) :: ranges, cs)
      | _               => do
        let (ranges, cs) ← readRanges fuel false cs
        some ((c, c) :: ranges, cs)

/-- The class after an opening bracket. -/
def read (cs : List Char) : Option (CharClass × List Char) := do
  let negated := cs.head? == some '!' || cs.head? == some '^'
  let cs := if negated then cs.tail else cs
  let (ranges, cs) ← readRanges (cs.length + 1) true cs
  some (⟨negated, ranges⟩, cs)

end CharClass

namespace Pattern

/-- The word matches the pattern; a quoted character of the pattern stands for itself. -/
def isMatch : (fuel : Nat) → List (Char × Bool) → List Char → Bool
  | 0,        _,           _       => false
  | _,        [],          cs      => cs.isEmpty
  | fuel + 1, (p, q) :: ps, cs     =>
    if q then cs.head? == some p && isMatch fuel ps cs.tail
    else
      match p, cs with
      | '*', []      => isMatch fuel ps []
      | '*', c :: cs => isMatch fuel ps (c :: cs) || isMatch fuel (('*', false) :: ps) cs
      | '?', _ :: cs => isMatch fuel ps cs
      | '?', []      => false
      | '[', c :: cs =>
        match CharClass.read (ps.map Prod.fst) with
        | some (s, rest) =>
          s.contains c && isMatch fuel (ps.drop (ps.length - rest.length)) cs
        | none           => c = '[' && isMatch fuel ps cs
      | p,   c :: cs => p = c && isMatch fuel ps cs
      | _,   []      => false

/-- Whether a word matches a pattern. -/
def accepts (pattern : List (Char × Bool)) (w : String) : Bool :=
  isMatch (pattern.length + w.toList.length + 1) pattern w.toList

/-- The first length, of all up to `most`, that passes; the longest first or the shortest. -/
def lengthThat (passes : Nat → Bool) (longest : Bool) (most : Nat) : Option Nat :=
  let lengths := List.range (most + 1)
  (if longest then lengths.reverse else lengths).find? passes

/-- A text without a match at its start, if there is one. -/
def withoutStart (longest : Bool) (pattern : List (Char × Bool)) (text : String) : String :=
  let cs := text.toList
  let matching (n : Nat) : Bool := accepts pattern (String.ofList (cs.take n))
  String.ofList (cs.drop ((lengthThat matching longest cs.length).getD 0))

/-- A text without a match at its end, if there is one. -/
def withoutEnd (longest : Bool) (pattern : List (Char × Bool)) (text : String) : String :=
  let cs := text.toList
  let matching (n : Nat) : Bool := accepts pattern (String.ofList (cs.drop (cs.length - n)))
  String.ofList (cs.take (cs.length - (lengthThat matching longest cs.length).getD 0))

end Pattern

end NativeMessaging.Shell
