import NativeMessaging.Shell.Expression
import NativeMessaging.Text.Utf8

/-!
# Shell — Editor

The stream editor `sed`: takes lines one by one, applies rules to each and writes what is left of it.
The rules can replace, print, delete, and quit.
-/

namespace NativeMessaging.Shell

namespace Editor

/-- The lines that a rule applies to. -/
inductive Address where
  | every
  | line (number : Nat)
  | last
  | matching (text : List Char) (e : Expression)
  deriving Repr

/-- A piece of a replacement: a character or what a group matched, the whole match being group 0. -/
inductive Insert where
  | char (c : Char)
  | group (number : Nat)
  deriving DecidableEq, Repr

inductive Action where
  | replace (text : List Char) (e : Expression) (inserts : List Insert) (first : Nat)
      (all print : Bool)
  | print
  | delete
  | quit
  deriving Repr

structure Rule where
  address : Address
  negated : Bool
  action : Action
  deriving Repr

/-! ### Reading rules -/

/-- The text up to a delimiter and what follows it; a backslash before the delimiter takes away its
meaning. -/
def readPart (delimiter : Char) : List Char → Option (List Char × List Char)
  | []             => none
  | '\\' :: c :: cs => do
    let (part, rest) ← readPart delimiter cs
    some (if c = delimiter then c :: part else '\\' :: c :: part, rest)
  | c :: cs        =>
    if c = delimiter then some ([], cs)
    else do
      let (part, rest) ← readPart delimiter cs
      some (c :: part, rest)

def readInserts : List Char → List Insert
  | []              => []
  | '&' :: cs       => .group 0 :: readInserts cs
  | '\\' :: c :: cs =>
    (if c.isDigit then .group (c.toNat - '0'.toNat) else .char (if c = 'n' then '\n' else c))
      :: readInserts cs
  | c :: cs         => .char c :: readInserts cs

def readAddress (extended : Bool) (cs : List Char) : Option (Address × List Char) :=
  match cs with
  | '$' :: cs => some (.last, cs)
  | '/' :: cs => do
    let (part, rest) ← readPart '/' cs
    some (.matching part (← Expression.parse extended (String.ofList part)), rest)
  | cs        =>
    match Expression.number? cs with
    | (some n, rest) => some (.line n, rest)
    | (none, _)      => some (.every, cs)

/-- The flags of a replacement. -/
def readFlags : (first : Nat) → (all print : Bool) → List Char → Nat × Bool × Bool × List Char
  | first, all, print, []      => (first, all, print, [])
  | first, all, print, c :: cs =>
    if c = 'g' then readFlags first true print cs
    else if c = 'p' then readFlags first all true cs
    else if c.isDigit then readFlags (c.toNat - '0'.toNat) all print cs
    else (first, all, print, c :: cs)

def readAction (extended : Bool) (cs : List Char) : Option (Action × List Char) :=
  match cs with
  | 'p' :: cs              => some (.print, cs)
  | 'd' :: cs              => some (.delete, cs)
  | 'q' :: cs              => some (.quit, cs)
  | 's' :: delimiter :: cs => do
    let (part, cs) ← readPart delimiter cs
    let (replacement, cs) ← readPart delimiter cs
    let e ← Expression.parse extended (String.ofList part)
    let (first, all, print, cs) := readFlags 1 false false cs
    some (.replace part e (readInserts replacement) first all print, cs)
  | _                      => none

def isSeparator (c : Char) : Bool := c ∈ [' ', '\t', '\n', ';']

def readRules (extended : Bool) : (fuel : Nat) → List Char → Option (List Rule)
  | 0,        _  => none
  | fuel + 1, cs =>
    let cs := cs.dropWhile isSeparator
    if cs.isEmpty then some []
    else do
      let (address, cs) ← readAddress extended cs
      let cs := cs.dropWhile (· == ' ')
      let negated := cs.head? == some '!'
      let (action, cs) ← readAction extended (if negated then cs.tail else cs)
      let cs := cs.dropWhile fun c => c == ' ' || c == '\t'
      if cs.isEmpty || cs.head?.any isSeparator then
        let rules ← readRules extended fuel cs
        some (⟨address, negated, action⟩ :: rules)
      else none

/-! ### Editing a line -/

/-- What a group of a match covers. -/
def covered (line : List Char) (found : Expression.Found) (n : Nat) : List Char :=
  let (start, ending) :=
    if n = 0 then (found.start, found.ending.position)
    else (found.ending.groups.lookup n).getD (0, 0)
  (line.drop start).take (ending - start)

/-- The text of a replacement. -/
def inserted (line : List Char) (found : Expression.Found) (inserts : List Insert) : List Char :=
  inserts.flatMap fun
    | .char c  => [c]
    | .group n => covered line found n

/-- Replaces the matches from the `first` one on, only that one or all.  The search goes on at
`position`, behind `count` matches; `behind` another match an empty one does not count. -/
def replaceFrom (text : List Char) (e : Expression) (inserts : List Insert) (first : Nat) (all : Bool)
    (line : List Char) : (fuel : Nat) → (behind : Bool) → (position count : Nat) → Option (List Char)
  | 0,        _,      _,        _     => none
  | fuel + 1, behind, position, count => do
    let found ← e.search (Expression.fuelFor text line) position (line.drop position)
    let ending := found.ending.position
    if behind && ending = position then
      let c ← (line.drop position).head?
      let more ← replaceFrom text e inserts first all line fuel false (position + 1) count
      some (c :: more)
    else
      let before := (line.drop position).take (found.start - position)
      let replaces := first ≤ count + 1
      let here := before ++ (if replaces then inserted line found inserts else covered line found 0)
      let more := if replaces && !all then none
        else replaceFrom text e inserts first all line fuel true ending (count + 1)
      match more with
      | some more => some (here ++ more)
      | none      => if replaces then some (here ++ line.drop ending) else none

/-- A line with its matches replaced, if there are any. -/
def replace (text : List Char) (e : Expression) (inserts : List Insert) (first : Nat) (all : Bool)
    (line : List Char) : Option (List Char) :=
  replaceFrom text e inserts first all line (2 * line.length + 3) false 0 0

/-- The rule applies to a line. -/
def Rule.applies (rule : Rule) (number : Nat) (isLast : Bool) (line : List Char) : Bool :=
  rule.negated != (match rule.address with
    | .every           => true
    | .line n          => n = number
    | .last            => isLast
    | .matching text e => (e.search (Expression.fuelFor text line) 0 line).isSome)

/-- What the rules make of a line: the lines written before it, what is left of it unless it is
deleted, and whether they quit. -/
def applyRules (number : Nat) (isLast : Bool) :
    List Rule → List Char → List (List Char) × Option (List Char) × Bool
  | [],      line => ([], some line, false)
  | r :: rs, line =>
    if r.applies number isLast line then
      match r.action with
      | .print  =>
        let (written, left, quits) := applyRules number isLast rs line
        (line :: written, left, quits)
      | .delete => ([], none, false)
      | .quit   => ([], some line, true)
      | .replace text e inserts first all print =>
        match replace text e inserts first all line with
        | none      => applyRules number isLast rs line
        | some line =>
          let (written, left, quits) := applyRules number isLast rs line
          (if print then line :: written else written, left, quits)
    else applyRules number isLast rs line

/-! ### Editing a stream -/

/-- How the editor was called. -/
structure Call where
  rules : List Rule
  quiet : Bool
  unbuffered : Bool
  deriving Repr

/-- The bytes up to a line feed, and those behind it if there is one. -/
def cutLine : List UInt8 → List UInt8 × Option (List UInt8)
  | []      => ([], none)
  | b :: bs =>
    if b = 10 then ([], some bs)
    else
      let (line, rest) := cutLine bs
      (b :: line, rest)

/-- Edits lines, up to the end or as far as they have arrived: what is written, and whether the editor
is done. -/
def edit (call : Call) (ended : Bool) : (fuel : Nat) → (number : Nat) → List UInt8 →
    List UInt8 × Bool
  | 0,        _,      _     => ([], true)
  | fuel + 1, number, bytes =>
    let (line, rest) := cutLine bytes
    let newline : List UInt8 := if rest.isSome then [10] else []
    if rest.isNone && line.isEmpty then ([], ended)
    else if rest.isNone && !ended then ([], false)
    else
      match Text.Utf8.decode line with
      | .error _ =>
        let (more, done) := edit call ended fuel (number + 1) (rest.getD [])
        (line ++ newline ++ more, done)
      | .ok text =>
        let isLast := ended && (rest.getD []).isEmpty
        let (written, left, quits) := applyRules number isLast call.rules text.toList
        let out (cs : List Char) : List UInt8 := Text.Utf8.encode (String.ofList cs)
        let left := if call.quiet then [] else (left.map fun cs => out cs ++ newline).getD []
        let here := written.flatMap (fun cs => out cs ++ [10]) ++ left
        if quits then (here, true)
        else
          let (more, done) := edit call ended fuel (number + 1) (rest.getD [])
          (here ++ more, done)

/-- The options at the start of the arguments: the script parts among them, and what follows. -/
structure Options where
  scripts : List String
  quiet : Bool
  unbuffered : Bool
  extended : Bool
  others : List String

/-- Takes the letters of an option; the last of them may take the next argument. -/
def Options.letters (options : Options) : List Char → Options × Bool
  | []      => (options, false)
  | c :: cs =>
    match c with
    | 'n' => Options.letters { options with quiet := true } cs
    | 'u' => Options.letters { options with unbuffered := true } cs
    | 'E' => Options.letters { options with extended := true } cs
    | 'r' => Options.letters { options with extended := true } cs
    | 'e' =>
      if cs.isEmpty then (options, true)
      else ({ options with scripts := options.scripts ++ [String.ofList cs] }, false)
    | _   => Options.letters options cs

/-- Reads arguments. -/
def Options.read : Options → List String → Options
  | options, []              => options
  | options, "--" :: args    => { options with others := options.others ++ args }
  | options, arg :: args     =>
    match arg.toList with
    | '-' :: c :: cs =>
      match options.letters (c :: cs), args with
      | (options, true),  script :: args =>
        Options.read { options with scripts := options.scripts ++ [script] } args
      | (options, _),     args           => Options.read options args
    | _              => Options.read { options with others := options.others ++ [arg] } args

/-- The call with those arguments, if they are one that reads the input. -/
def Call.ofArgs (args : List String) : Option Call := do
  let options := Options.read ⟨[], false, false, false, []⟩ args
  let (script, files) ← match options.scripts, options.others with
    | [],      script :: files => some (script, files)
    | [],      []              => none
    | scripts, files           => some (String.intercalate "\n" scripts, files)
  if files.isEmpty then
    let rules ← readRules options.extended (script.toList.length + 2) script.toList
    some ⟨rules, options.quiet, options.unbuffered⟩
  else none

/-- What the editor has written about the input so far, and whether it is done; unless it is
unbuffered, it writes nothing before that. -/
def Call.run (call : Call) (input : List UInt8) (ended : Bool) : List UInt8 × Bool :=
  let (out, done) := edit call ended (input.length + 2) 1 input
  (if call.unbuffered || done then out else [], done)

end Editor

end NativeMessaging.Shell
