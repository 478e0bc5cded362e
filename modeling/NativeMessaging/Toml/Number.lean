import NativeMessaging.Toml.Token

/-!
# Toml — Number

Integers of 64 bits in four bases, floating-point numbers, and dates and times, which are kept as
their normalised text.
-/

namespace NativeMessaging.Toml.Number

open Decimal (Binary64)

/-! ### Digits -/

/-- Reads digits, with single underscores between them, and gives them without the underscores. -/
def digitsFrom (isDigit : Char → Bool) (acc : List Char) : (mustDigit : Bool) → Reader (List Char)
  | mustDigit, []      => if mustDigit then none else some (acc.reverse, [])
  | mustDigit, c :: cs =>
    if isDigit c then digitsFrom isDigit (c :: acc) false cs
    else if mustDigit then none
    else if c = '_' then digitsFrom isDigit acc true cs
    else some (acc.reverse, c :: cs)

/-- Reads at least one digit. -/
def digits (isDigit : Char → Bool) (cs : List Char) : Option (List Char × List Char) :=
  digitsFrom isDigit [] true cs

/-- The number that digits spell in a base. -/
def valueOf (base : Nat) (ds : List Char) : Nat :=
  ds.foldl (fun n d => n * base + (Token.hexValue? d).getD 0) 0

/-- Reads the whole part of a decimal number, which has no leading zero. -/
def wholePart : Reader (List Char)
  | '0' :: cs => some (['0'], cs)
  | cs        => digits Char.isDigit cs

/-! ### Integers -/

/-- An integer of 64 bits. -/
def integer (i : Int) : Option Value :=
  if Int64.minValue.toInt ≤ i ∧ i ≤ Int64.maxValue.toInt then some (.integer i) else none

/-- Reads the digits of an integer in a base other than ten. -/
def radix (base : Nat) (isDigit : Char → Bool) (cs : List Char) : Option (Value × List Char) := do
  let (ds, rest) ← digits isDigit cs
  some (← integer (valueOf base ds), rest)

/-! ### Floating-point numbers -/

/-- The number `± digits · 10 ^ exponent`, rounded to nearest.  One that is too large is infinite,
and only a negative infinity may come about in this way. -/
def realOf (negative : Bool) (ds : List Char) (exponent : Int) : Option Real :=
  let n := valueOf 10 ds
  let magnitude : Int := (Nat.toDigits 10 n).length + exponent
  let rounded : Option Binary64 :=
    if n = 0 ∨ magnitude < -400 then some .zero
    else if 400 < magnitude then none
    else if 0 ≤ exponent then Binary64.round (n * Nat.pow 10 exponent.toNat) 1
    else Binary64.round n (Nat.pow 10 (-exponent).toNat)
  match rounded with
  | some x => some (.finite { x with negative := negative })
  | none   => if negative then some (.infinite true) else none

/-- Reads an exponent behind its letter. -/
def exponent (cs : List Char) : Option (Int × List Char) := do
  let (down, cs) : Bool × List Char :=
    match cs with
    | '+' :: cs => (false, cs)
    | '-' :: cs => (true, cs)
    | cs        => (false, cs)
  let (ds, rest) ← digits Char.isDigit cs
  let e : Int := valueOf 10 ds
  some (if down then -e else e, rest)

/-- Reads an exponent, if there is one. -/
def exponent? : Reader Int
  | 'e' :: cs => exponent cs
  | 'E' :: cs => exponent cs
  | cs        => some (0, cs)

/-- Reads a decimal number behind its sign. -/
def decimal (negative : Bool) (cs : List Char) : Option (Value × List Char) := do
  let (whole, rest) ← wholePart cs
  match rest with
  | '.' :: rest => do
    let (fraction, rest) ← digits Char.isDigit rest
    let (e, rest) ← exponent? rest
    some (.real (← realOf negative (whole ++ fraction) (e - fraction.length)), rest)
  | 'e' :: rest | 'E' :: rest => do
    let (e, rest) ← exponent rest
    some (.real (← realOf negative whole e), rest)
  | rest =>
    let n : Int := valueOf 10 whole
    some (← integer (if negative then -n else n), rest)

/-- Reads a number behind its sign, be it infinite or none. -/
def signed (negative : Bool) : Reader Value
  | 'i' :: 'n' :: 'f' :: cs => some (.real (.infinite negative), cs)
  | 'n' :: 'a' :: 'n' :: cs => some (.real .nan, cs)
  | cs                      => decimal negative cs

/-- Reads a number. -/
def number : Reader Value
  | '+' :: cs        => signed false cs
  | '-' :: cs        => signed true cs
  | '0' :: 'x' :: cs => radix 16 (fun c => (Token.hexValue? c).isSome) cs
  | '0' :: 'o' :: cs => radix 8 (fun c => '0' ≤ c && c ≤ '7') cs
  | '0' :: 'b' :: cs => radix 2 (fun c => c == '0' || c == '1') cs
  | cs               => signed false cs

/-! ### Dates and times -/

/-- Reads two digits that spell a number within bounds. -/
def pair (least greatest : Nat) : Reader (List Char)
  | a :: b :: cs =>
    if a.isDigit ∧ b.isDigit ∧ least ≤ valueOf 10 [a, b] ∧ valueOf 10 [a, b] ≤ greatest then
      some ([a, b], cs)
    else none
  | _ => none

/-- Reads one character. -/
def expect (c : Char) : List Char → Option (List Char)
  | d :: cs => if d = c then some cs else none
  | []      => none

/-- How many days a month has. -/
def daysIn (year month : Nat) : Nat :=
  if month = 2 then
    if year % 4 = 0 ∧ (year % 100 ≠ 0 ∨ year % 400 = 0) then 29 else 28
  else if month ∈ [4, 6, 9, 11] then 30
  else 31

/-- Reads a date. -/
def date (cs : List Char) : Option (List Char × List Char) := do
  let year := cs.take 4
  let rest ← expect '-' (cs.drop 4)
  let (month, rest) ← pair 1 12 rest
  let rest ← expect '-' rest
  let (day, rest) ← pair 1 31 rest
  if year.all Char.isDigit ∧ valueOf 10 day ≤ daysIn (valueOf 10 year) (valueOf 10 month) then
    some (year ++ ['-'] ++ month ++ ['-'] ++ day, rest)
  else none

/-- Reads the fraction of a second, if there is one: nine digits count, and zeros at their end do
not show. -/
def secondFraction : List Char → List Char × List Char
  | '.' :: cs =>
    let ds := cs.takeWhile Char.isDigit
    if ds.isEmpty then ([], '.' :: cs)
    else
      let shown := Decimal.dropZeros (ds.take 9)
      (if shown.isEmpty then [] else '.' :: shown, cs.drop ds.length)
  | cs => ([], cs)

/-- Reads a time of day. -/
def time (cs : List Char) : Option (List Char × List Char) := do
  let (hour, rest) ← pair 0 23 cs
  let (minute, rest) ← pair 0 59 (← expect ':' rest)
  let (second, rest) ← pair 0 60 (← expect ':' rest)
  let (fraction, rest) := secondFraction rest
  some (hour ++ [':'] ++ minute ++ [':'] ++ second ++ fraction, rest)

/-- Reads the offset of a time from the universal one, if there is one; an offset of nothing is
positive. -/
def offset? : Reader (List Char)
  | 'Z' :: cs => some (['Z'], cs)
  | 'z' :: cs => some (['Z'], cs)
  | '+' :: cs => offset '+' cs
  | '-' :: cs => offset '-' cs
  | cs        => some ([], cs)
where
  offset (sign : Char) (cs : List Char) : Option (List Char × List Char) := do
    let (hour, rest) ← pair 0 23 cs
    let (minute, rest) ← pair 0 59 (← expect ':' rest)
    let sign := if valueOf 10 hour = 0 ∧ valueOf 10 minute = 0 then '+' else sign
    some (sign :: hour ++ [':'] ++ minute, rest)

/-- Starts like a time of day. -/
def startsTime : List Char → Bool
  | a :: b :: ':' :: _ => a.isDigit && b.isDigit
  | _                  => false

/-- Starts like a date. -/
def startsDate (cs : List Char) : Bool :=
  (cs.take 4).all Char.isDigit && cs[4]? == some '-'

/-- Reads the time behind a date, if there is one. -/
def dateTime (day cs : List Char) : Option (Value × List Char) := do
  let plain : Value := .datetime (String.ofList day)
  match cs with
  | c :: rest =>
    if (c = 'T' ∨ c = 't' ∨ c = ' ') ∧ startsTime rest then
      let (time, rest) ← time rest
      let (offset, rest) ← offset? rest
      some (.datetime (String.ofList (day ++ ['T'] ++ time ++ offset)), rest)
    else some (plain, cs)
  | [] => some (plain, [])

/-- Reads a number, a date or a time. -/
def read (cs : List Char) : Option (Value × List Char) :=
  if startsDate cs then do
    let (day, rest) ← date cs
    dateTime day rest
  else if startsTime cs then do
    let (time, rest) ← time cs
    some (.datetime (String.ofList time), rest)
  else number cs

end NativeMessaging.Toml.Number
