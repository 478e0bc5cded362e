import NativeMessaging.Json.Fault
import NativeMessaging.Json.Value

/-!
# Json — Token

The smallest parts of a JSON text, each read from the start of the rest of the text: blanks, words,
strings and numbers.
-/

namespace NativeMessaging.Json.Token

open Decimal (Binary64)

/-! ### Blanks and words -/

/-- The characters that may stand between the parts of a text. -/
def isSpace (c : Char) : Bool := c == ' ' || c == '\n' || c == '\t' || c == '\r'

/-- The text behind the blanks at its start. -/
def skipSpace (cs : List Char) : List Char := cs.dropWhile isSpace

/-- The text behind a word. -/
def word : List Char → List Char → Except Fault (List Char)
  | [],      cs      => .ok cs
  | _ :: _,  []      => failBefore .eofInValue []
  | w :: ws, c :: cs => if c = w then word ws cs else failAt .expectedWord (c :: cs)

/-! ### Strings -/

/-- The value of a hexadecimal digit of either case. -/
def hexValue? (c : Char) : Option Nat :=
  if '0' ≤ c ∧ c ≤ '9' then some (c.toNat - '0'.toNat)
  else if 'a' ≤ c ∧ c ≤ 'f' then some (c.toNat - 'a'.toNat + 10)
  else if 'A' ≤ c ∧ c ≤ 'F' then some (c.toNat - 'A'.toNat + 10)
  else none

/-- The number that four hexadecimal digits at the start of the text spell. -/
def hexUnit (cs : List Char) : Except Fault Nat :=
  match cs with
  | a :: b :: c :: d :: _ =>
    match hexValue? a, hexValue? b, hexValue? c, hexValue? d with
    | some a, some b, some c, some d => .ok (((a * 16 + b) * 16 + c) * 16 + d)
    | _, _, _, _                     => .error ⟨.invalidEscape, cs, 4⟩
  | _ => if 4 ≤ byteSize cs then .error ⟨.invalidEscape, cs, 4⟩ else failBefore .eofInString []

/-- The first half of a pair of units for a character beyond U+FFFF. -/
def isHighSurrogate (n : Nat) : Bool := 0xD800 ≤ n && n ≤ 0xDBFF

/-- The second half of such a pair. -/
def isLowSurrogate (n : Nat) : Bool := 0xDC00 ≤ n && n ≤ 0xDFFF

/-- The character of a pair of units. -/
def ofSurrogates (high low : Nat) : Char :=
  Char.ofNat ((high - 0xD800) * 0x400 + (low - 0xDC00) + 0x10000)

/-- The second unit of a pair, which has to follow the first at once. -/
def secondUnit (high : Nat) : List Char → Except Fault (Char × Nat)
  | []             => failBefore .eofInString []
  | ['\\']         => failBefore .eofInString []
  | '\\' :: 'u' :: cs => do
    let low ← hexUnit cs
    if isLowSurrogate low then .ok (ofSurrogates high low, 11)
    else failBefore .loneSurrogate (cs.drop 4)
  | '\\' :: cs     => failAt .unpairedSurrogate cs
  | cs             => failAt .unpairedSurrogate cs

/-- The character of an escape by number, and how many characters the escape takes after the
backslash. -/
def numberEscape (cs : List Char) : Except Fault (Char × Nat) := do
  let n ← hexUnit cs
  if isLowSurrogate n then failBefore .loneSurrogate (cs.drop 4)
  else if isHighSurrogate n then secondUnit n (cs.drop 4)
  else .ok (Char.ofNat n, 5)

/-- The character that an escape stands for, and how many characters it takes after the
backslash. -/
def escaped : List Char → Except Fault (Char × Nat)
  | []      => failBefore .eofInString []
  | c :: cs =>
    if c = '"' then .ok ('"', 1)
    else if c = '\\' then .ok ('\\', 1)
    else if c = '/' then .ok ('/', 1)
    else if c = 'b' then .ok ('\x08', 1)
    else if c = 'f' then .ok ('\x0c', 1)
    else if c = 'n' then .ok ('\n', 1)
    else if c = 'r' then .ok ('\r', 1)
    else if c = 't' then .ok ('\t', 1)
    else if c = 'u' then numberEscape cs
    else failAt .invalidEscape (c :: cs)

/-- Reads a string behind its opening quotation mark: `acc` holds the characters so far, the last
one first, and the next `skip` characters belong to an escape that has been read. -/
def stringBody (acc : List Char) : (skip : Nat) → List Char → Except Fault (String × List Char)
  | _,        []      => failBefore .eofInString []
  | skip + 1, _ :: cs => stringBody acc skip cs
  | 0,        c :: cs =>
    if c = '"' then .ok (String.ofList acc.reverse, cs)
    else if c = '\\' then
      match escaped cs with
      | .ok (d, taken) => stringBody (d :: acc) taken cs
      | .error fault   => .error fault
    else if c < ' ' then failAt .controlCharacter (c :: cs)
    else stringBody (c :: acc) 0 cs

/-! ### Numbers -/

/-- The value of a decimal digit. -/
def digitValue (c : Char) : Nat := c.toNat - '0'.toNat

/-- Reads digits into a number as long as it stays below the bound: the number, how many digits it
took, and the rest. -/
def takeDigits (bound : Nat) : (n taken : Nat) → List Char → Nat × Nat × List Char
  | n, taken, []      => (n, taken, [])
  | n, taken, c :: cs =>
    if c.isDigit ∧ n * 10 + digitValue c < bound then
      takeDigits bound (n * 10 + digitValue c) (taken + 1) cs
    else (n, taken, c :: cs)

/-- The text behind the digits at its start. -/
def skipDigits (cs : List Char) : List Char := cs.dropWhile Char.isDigit

/-- Starts with a digit. -/
def startsWithDigit : List Char → Bool
  | []     => false
  | c :: _ => c.isDigit

/-- Divides by ten to the power `e`, in steps for which the power is a number of the format; after
three of them nothing is left. -/
def scaleDown : (steps : Nat) → Binary64 → (e : Nat) → Option Binary64
  | 0,         _, _ => some .zero
  | steps + 1, x, e =>
    if e ≤ 308 then do x.div (← Binary64.powerOfTen e)
    else do scaleDown steps (← x.div (← Binary64.powerOfTen 308)) (e - 308)

/-- The number `significand · 10 ^ exponent`, rounded at every step; none beyond the largest number
of the format. -/
def scale (significand : Nat) (exponent : Int) : Option Binary64 := do
  let x ← Binary64.ofNat significand
  if x.isZero then some .zero
  else if exponent < 0 then scaleDown 3 x (-exponent).toNat
  else if exponent ≤ 308 then x.mul (← Binary64.powerOfTen exponent.toNat)
  else none

/-- The number with that sign, significand and exponent, and the rest behind it. -/
def real (negative : Bool) (significand : Nat) (exponent : Int) (rest : List Char) :
    Except Fault (Number × List Char) :=
  match scale significand exponent with
  | some x => .ok (.real { x with negative := negative }, rest)
  | none   => failBefore .numberOutOfRange rest

/-- Reads an exponent behind its letter.  One that needs more than 31 bits makes the number zero or
puts it out of range. -/
def exponent (negative : Bool) (significand : Nat) (shift : Int) (cs : List Char) :
    Except Fault (Number × List Char) :=
  let (down, cs) : Bool × List Char :=
    match cs with
    | '+' :: cs => (false, cs)
    | '-' :: cs => (true, cs)
    | cs        => (false, cs)
  match cs with
  | []     => failBefore .eofInValue []
  | c :: _ =>
    if c.isDigit then
      let (e, _, rest) := takeDigits (UInt32.size / 2) 0 0 cs
      if startsWithDigit rest then
        if significand ≠ 0 ∧ !down then failBefore .numberOutOfRange (rest.drop 1)
        else .ok (.real { Binary64.zero with negative := negative }, skipDigits rest)
      else real negative significand (if down then shift - e else shift + e) rest
    else failAt .invalidNumber cs

/-- Reads what follows the digits of a number with a fraction or a shifted point. -/
def exponent? (negative : Bool) (significand : Nat) (shift : Int) (cs : List Char) :
    Except Fault (Number × List Char) :=
  match cs with
  | 'e' :: cs => exponent negative significand shift cs
  | 'E' :: cs => exponent negative significand shift cs
  | cs        => real negative significand shift cs

/-- Reads the digits behind the point; those that no longer fit 64 bits do not count. -/
def fraction (negative : Bool) (significand : Nat) (shift : Int) (cs : List Char) :
    Except Fault (Number × List Char) :=
  if startsWithDigit cs then
    let (n, taken, rest) := takeDigits UInt64.size significand 0 cs
    exponent? negative n (shift - taken) (skipDigits rest)
  else if cs.isEmpty then failBefore .eofInValue []
  else failAt .invalidNumber cs

/-- A whole number: negative ones reach down to `-2 ^ 63`, and a negative zero is no whole
number. -/
def whole (negative : Bool) (n : Nat) (rest : List Char) : Except Fault (Number × List Char) :=
  if !negative then .ok (.natural n, rest)
  else if n = 0 ∨ UInt64.size / 2 < n then real true n 0 rest
  else .ok (.negative n, rest)

/-- Reads a number behind its sign: the digits of its whole part that fit 64 bits, the others
shifting the point. -/
def number (negative : Bool) (cs : List Char) : Except Fault (Number × List Char) :=
  match cs with
  | []         => failBefore .eofInValue []
  | c :: after =>
    if c.isDigit then
      if c = '0' ∧ startsWithDigit after then failAt .invalidNumber after
      else
        let (n, _, rest) := takeDigits UInt64.size 0 0 cs
        let shift := (rest.takeWhile Char.isDigit).length
        match skipDigits rest with
        | '.' :: cs => fraction negative n shift cs
        | 'e' :: cs => exponent negative n shift cs
        | 'E' :: cs => exponent negative n shift cs
        | cs        => if shift = 0 then whole negative n cs else real negative n shift cs
    else failAt .invalidNumber cs

end NativeMessaging.Json.Token
