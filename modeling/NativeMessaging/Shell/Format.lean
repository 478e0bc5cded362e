import NativeMessaging.Text.Utf8

/-!
# Shell — Format

What `printf` and `echo` make of a format, its backslashes and the arguments for it.
-/

namespace NativeMessaging.Shell

open Text (Utf8.encode)

namespace Format

/-- What a backslash and one character behind it stand for. -/
def escapes : List (Char × UInt8) :=
  [('a', 7), ('b', 8), ('f', 12), ('n', 10), ('r', 13), ('t', 9), ('v', 11), ('\\', 92)]

def isOctal (c : Char) : Bool := '0' ≤ c && c ≤ '7'

/-- The byte of octal digits. -/
def octal (digits : List Char) : UInt8 :=
  UInt8.ofNat (digits.foldl (fun n c => n * 8 + (c.toNat - '0'.toNat)) 0)

/-- What a backslash followed by `cs` stands for, and what is left of `cs`; in a text a number starts
with a zero, in a format with any octal digit. -/
def afterBackslash (inText : Bool) (cs : List Char) : List UInt8 × List Char :=
  match cs with
  | []      => ([92], [])
  | c :: cs =>
    match escapes.lookup c with
    | some b => ([b], cs)
    | none   =>
      if isOctal c && (!inText || c == '0') then
        let all := if inText then cs else c :: cs
        let digits := (all.take 3).takeWhile isOctal
        ([octal digits], all.drop digits.length)
      else (92 :: Utf8.encode c.toString, cs)

/-- How an argument is written: to the left or to the right of the blanks or zeros that fill it up to a
width, and how much of it. -/
structure Directive where
  toLeft : Bool
  zeros : Bool
  width : Nat
  precision : Option Nat
  kind : Char
  deriving DecidableEq, Repr

/-- A part of a format. -/
inductive Part where
  | bytes (bytes : List UInt8)
  | argument (directive : Directive)
  deriving DecidableEq, Repr

/-- The kinds of arguments. -/
def kinds : List Char := ['s', 'b', 'c', 'd', 'i', 'u', 'o', 'x', 'X']

/-- The number at the start; none is zero. -/
def numberOf (cs : List Char) : Nat × List Char :=
  let digits := cs.takeWhile Char.isDigit
  (((String.ofList digits).toNat?).getD 0, cs.drop digits.length)

/-- The directive after a percent sign. -/
def directive? (cs : List Char) : Option (Directive × List Char) := do
  let flags := cs.takeWhile fun c => c == '-' || c == '0'
  let (width, cs) := numberOf (cs.drop flags.length)
  let (precision, cs) := match cs with
    | '.' :: cs =>
      let (n, cs) := numberOf cs
      (some n, cs)
    | cs        => (none, cs)
  let kind ← cs.head?
  if kind ∈ kinds then
    some (⟨flags.contains '-', flags.contains '0', width, precision, kind⟩, cs.tail)
  else none

/-- The parts of a format, up to a directive that is not one. -/
def parse : (fuel : Nat) → List Char → List Part
  | 0,        _       => []
  | _,        []      => []
  | fuel + 1, c :: cs =>
    match c, cs with
    | '%',  '%' :: cs => .bytes [37] :: parse fuel cs
    | '%',  cs        =>
      match directive? cs with
      | some (directive, cs) => .argument directive :: parse fuel cs
      | none                 => []
    | '\\', cs        =>
      let (bytes, cs) := afterBackslash false cs
      .bytes bytes :: parse fuel cs
    | c,    cs        => .bytes (Utf8.encode c.toString) :: parse fuel cs

/-- A text with its backslashes resolved, and whether it ends the output. -/
def resolve : (fuel : Nat) → List Char → List UInt8 × Bool
  | 0,        _       => ([], false)
  | _,        []      => ([], false)
  | fuel + 1, c :: cs =>
    match c, cs with
    | '\\', 'c' :: _ => ([], true)
    | '\\', cs       =>
      let (bytes, cs) := afterBackslash true cs
      let (more, ends) := resolve fuel cs
      (bytes ++ more, ends)
    | c,    cs       =>
      let (more, ends) := resolve fuel cs
      (Utf8.encode c.toString ++ more, ends)

/-- The text of an argument with its backslashes resolved. -/
def resolved (s : String) : List UInt8 × Bool := resolve (s.toList.length + 1) s.toList

/-- The digits of a number in the base of its kind, at least as many as the precision says. -/
def digitsOf (directive : Directive) (n : Nat) : List Char :=
  let digits := match directive.kind with
    | 'o' => Nat.toDigits 8 n
    | 'x' => Nat.toDigits 16 n
    | 'X' => (Nat.toDigits 16 n).map Char.toUpper
    | _   => Nat.toDigits 10 n
  List.replicate (directive.precision.getD 1 - digits.length) '0' ++ digits

/-- Fills a sign and what follows it up to the width. -/
def filled (directive : Directive) (zeros : Bool) (sign bytes : List UInt8) : List UInt8 :=
  let missing := directive.width - (sign.length + bytes.length)
  if directive.toLeft then sign ++ bytes ++ List.replicate missing 32
  else if zeros then sign ++ List.replicate missing 48 ++ bytes
  else List.replicate missing 32 ++ sign ++ bytes

/-- How an argument is written. -/
def argument (directive : Directive) (s : String) : List UInt8 :=
  let cut (bytes : List UInt8) : List UInt8 :=
    filled directive false [] (bytes.take (directive.precision.getD bytes.length))
  match directive.kind with
  | 's' => cut (Utf8.encode s)
  | 'b' => cut (resolved s).1
  | 'c' => filled directive false [] (Utf8.encode (String.ofList (s.toList.take 1)))
  | _   =>
    let i := s.toInt?.getD 0
    filled directive (directive.zeros && directive.precision.isNone) (if i < 0 then [45] else [])
      (Utf8.encode (String.ofList (digitsOf directive i.natAbs)))

/-- One pass over the parts: what it writes, and the arguments it leaves. -/
def pass : List Part → List String → List UInt8 × List String
  | [],                  args => ([], args)
  | .bytes b :: ps,      args =>
    let (out, args) := pass ps args
    (b ++ out, args)
  | .argument k :: ps, args =>
    let (out, left) := pass ps args.tail
    (argument k (args.head?.getD "") ++ out, left)

/-- Passes until no argument is left; a format without directives takes one pass. -/
def passes (parts : List Part) : (fuel : Nat) → List String → List UInt8
  | 0,        _    => []
  | fuel + 1, args =>
    let (out, left) := pass parts args
    if left.isEmpty || left.length = args.length then out else out ++ passes parts fuel left

/-- What `printf` writes. -/
def printf (format : String) (args : List String) : List UInt8 :=
  passes (parse (format.toList.length + 1) format.toList) (args.length + 1) args

/-- What `echo` writes. -/
def echo (args : List String) : List UInt8 :=
  let (newline, args) := match args with
    | "-n" :: args => (false, args)
    | args         => (true, args)
  let (out, ends) := resolved (String.intercalate " " args)
  if newline && !ends then out ++ [10] else out

end Format

end NativeMessaging.Shell
