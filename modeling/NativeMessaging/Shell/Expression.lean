import NativeMessaging.Shell.Pattern

/-!
# Shell — Expression

Regular expressions, in the basic and in the extended way of writing, and the first place in a line
where one of them matches.
-/

namespace NativeMessaging.Shell

inductive Expression where
  | empty
  | one (c : Char)
  | any
  | oneOf (chars : CharClass)
  | lineStart
  | lineEnd
  | sequence (first second : Expression)
  | either (first second : Expression)
  | repeated (e : Expression) (least : Nat) (most : Option Nat)
  | group (number : Nat) (e : Expression)
  deriving Repr

namespace Expression

/-! ### Reading -/

/-- A mark of an expression: the ways of writing differ in which marks take a backslash. -/
inductive Mark where
  | open
  | close
  | bar
  | brace
  | plus
  | question
  deriving DecidableEq, Repr

def marks : List (Char × Mark) :=
  [('(', .open), (')', .close), ('|', .bar), ('\x7b', .brace), ('+', .plus), ('?', .question)]

/-- The mark at the start. -/
def mark? (extended : Bool) : List Char → Option (Mark × List Char)
  | '\\' :: c :: cs => if extended then none else (marks.lookup c).map (·, cs)
  | c :: cs         => if extended then (marks.lookup c).map (·, cs) else none
  | []              => none

/-- A number at the start. -/
def number? (cs : List Char) : Option Nat × List Char :=
  let digits := cs.takeWhile Char.isDigit
  ((String.ofList digits).toNat?, cs.drop digits.length)

/-- The bounds after an opening brace. -/
def bounds? (extended : Bool) (cs : List Char) : Option (Nat × Option Nat × List Char) := do
  let (least, cs) := number? cs
  let (most, cs) := match cs with
    | ',' :: cs => number? cs
    | cs        => (least, cs)
  let cs := if extended then cs else cs.tail
  if cs.head? == some '\x7d' then some (least.getD 0, most, cs.tail) else none

/-- What a letter after a backslash stands for. -/
def letter (c : Char) : Expression :=
  match c with
  | 'n' => .one '\n'
  | 't' => .one '\t'
  | c   => .one c

mutual

/-- Alternatives, up to the end or to a closing mark; `groups` are those opened so far. -/
def readEither (extended : Bool) : (fuel : Nat) → (groups : Nat) → List Char →
    Option (Expression × Nat × List Char)
  | 0,        _,      _  => none
  | fuel + 1, groups, cs => do
    let (first, groups, cs) ← readSequence extended fuel true groups cs
    match mark? extended cs with
    | some (.bar, cs) =>
      let (second, groups, cs) ← readEither extended fuel groups cs
      some (.either first second, groups, cs)
    | _               => some (first, groups, cs)

/-- Items one behind the other; `first` where none came before. -/
def readSequence (extended : Bool) : (fuel : Nat) → (first : Bool) → (groups : Nat) → List Char →
    Option (Expression × Nat × List Char)
  | 0,        _,     _,      _  => none
  | fuel + 1, first, groups, cs =>
    match mark? extended cs with
    | some (.bar, _)   => some (.empty, groups, cs)
    | some (.close, _) => some (.empty, groups, cs)
    | _                =>
      if cs.isEmpty then some (.empty, groups, cs)
      else do
        let (item, groups, cs) ← readItem extended fuel first groups cs
        let (item, cs) ← readRepetition extended fuel item cs
        let (rest, groups, cs) ← readSequence extended fuel false groups cs
        some (.sequence item rest, groups, cs)

/-- One item. -/
def readItem (extended : Bool) : (fuel : Nat) → (first : Bool) → (groups : Nat) → List Char →
    Option (Expression × Nat × List Char)
  | 0,        _,     _,      _  => none
  | fuel + 1, first, groups, cs =>
    match mark? extended cs with
    | some (.open, cs) => do
      let (inner, groups', cs) ← readEither extended fuel (groups + 1) cs
      match mark? extended cs with
      | some (.close, cs) => some (.group (groups + 1) inner, groups', cs)
      | _                 => none
    | _                =>
      match cs with
      | '\\' :: c :: cs => some (letter c, groups, cs)
      | '.' :: cs       => some (.any, groups, cs)
      | '[' :: cs       => do
        let (s, cs) ← CharClass.read cs
        some (.oneOf s, groups, cs)
      | '^' :: cs       =>
        if first || extended then some (.lineStart, groups, cs) else some (.one '^', groups, cs)
      | '$' :: cs       =>
        let last := match mark? extended cs with
          | some (.close, _) => true
          | some (.bar, _)   => true
          | _                => cs.isEmpty
        if last then some (.lineEnd, groups, cs) else some (.one '$', groups, cs)
      | c :: cs         => some (.one c, groups, cs)
      | []              => none

/-- How often the item before may come. -/
def readRepetition (extended : Bool) : (fuel : Nat) → Expression → List Char →
    Option (Expression × List Char)
  | 0,        _, _  => none
  | fuel + 1, e, cs =>
    match cs with
    | '*' :: cs => readRepetition extended fuel (.repeated e 0 none) cs
    | cs        =>
      match mark? extended cs with
      | some (.plus, cs)     => readRepetition extended fuel (.repeated e 1 none) cs
      | some (.question, cs) => readRepetition extended fuel (.repeated e 0 (some 1)) cs
      | some (.brace, cs)    => do
        let (least, most, cs) ← bounds? extended cs
        readRepetition extended fuel (.repeated e least most) cs
      | _                    => some (e, cs)

end

/-- The expression that a text says. -/
def parse (extended : Bool) (s : String) : Option Expression := do
  let (e, _, rest) ← readEither extended (6 * s.toList.length + 6) 0 s.toList
  if rest.isEmpty then some e else none

/-! ### Matching -/

/-- A match under way: how many characters of the line lie before, what follows, and where the groups
start and end. -/
structure Place where
  position : Nat
  rest : List Char
  groups : List (Nat × Nat × Nat)
  deriving DecidableEq, Repr

/-- The place behind the next character, if it passes the test. -/
def Place.take (place : Place) (test : Char → Bool) : Option Place :=
  match place.rest with
  | c :: cs => if test c then some { place with position := place.position + 1, rest := cs } else none
  | []      => none

/-- Matches as much as possible at a place, so that the rest of the match succeeds. -/
def matchAt : (fuel : Nat) → Expression → Place → (Place → Option Place) → Option Place
  | 0,        _, _,     _    => none
  | fuel + 1, e, place, rest =>
    match e with
    | .empty        => rest place
    | .one c        => (place.take (· == c)).bind rest
    | .any          => (place.take fun _ => true).bind rest
    | .oneOf s      => (place.take s.contains).bind rest
    | .lineStart    => if place.position = 0 then rest place else none
    | .lineEnd      => if place.rest.isEmpty then rest place else none
    | .sequence a b => matchAt fuel a place fun place => matchAt fuel b place rest
    | .either a b   =>
      match matchAt fuel a place rest with
      | some found => some found
      | none       => matchAt fuel b place rest
    | .group n a    =>
      matchAt fuel a place fun ending =>
        rest { ending with groups := (n, place.position, ending.position) :: ending.groups }
    | .repeated a least most =>
      let again := if most = some 0 then none
        else matchAt fuel a place fun next =>
          if next.position = place.position && least = 0 then none
          else matchAt fuel (.repeated a (least - 1) (most.map (· - 1))) next rest
      match again with
      | some found => some found
      | none       => if least = 0 then rest place else none

/-- What a match covers: where it starts, and the place behind it. -/
structure Found where
  start : Nat
  ending : Place
  deriving DecidableEq, Repr

/-- The first match at or behind a position. -/
def search (e : Expression) (fuel : Nat) : (position : Nat) → List Char → Option Found
  | position, []      =>
    (matchAt fuel e ⟨position, [], []⟩ some).map fun ending => ⟨position, ending⟩
  | position, c :: cs =>
    match matchAt fuel e ⟨position, c :: cs, []⟩ some with
    | some ending => some ⟨position, ending⟩
    | none        => search e fuel (position + 1) cs

/-- The steps that a match in a line may take. -/
def fuelFor (e : List Char) (line : List Char) : Nat := 8 * (e.length + line.length) + 64

end Expression

end NativeMessaging.Shell
