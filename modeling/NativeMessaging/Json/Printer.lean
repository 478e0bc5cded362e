import NativeMessaging.Json.Value

/-!
# Json — Printer

The compact text of a JSON value: no blanks, members in the order in which the value holds them.
Inside a string only the quotation mark, the backslash and the control characters are escaped, the
common ones by a letter and the others by four hexadecimal digits.
-/

namespace NativeMessaging.Json

open Decimal (natText Style)

/-- Numbers with a fraction: positional from `1e-5` up to below `1e16`. -/
def realStyle : Style := ⟨some (-5), some 15⟩

/-- The lower-case hexadecimal digit of a number below sixteen. -/
def hexDigit (n : Nat) : Char := Nat.digitChar n

/-- The written form of a character inside a string. -/
def escape (c : Char) : List Char :=
  if c = '"' then ['\\', '"']
  else if c = '\\' then ['\\', '\\']
  else if c = '\x08' then ['\\', 'b']
  else if c = '\t' then ['\\', 't']
  else if c = '\n' then ['\\', 'n']
  else if c = '\x0c' then ['\\', 'f']
  else if c = '\r' then ['\\', 'r']
  else if c < ' ' then ['\\', 'u', '0', '0', hexDigit (c.toNat / 16), hexDigit (c.toNat % 16)]
  else [c]

/-- A string between its quotation marks. -/
def quote (s : String) : List Char := '"' :: (s.toList.flatMap escape ++ ['"'])

def Number.text : Number → List Char
  | .natural n  => natText n
  | .negative n => '-' :: natText n
  | .real x     => realStyle.write x

mutual

/-- The compact text of a value. -/
def text : Json → List Char
  | .null           => ['n', 'u', 'l', 'l']
  | .bool true      => ['t', 'r', 'u', 'e']
  | .bool false     => ['f', 'a', 'l', 's', 'e']
  | .number n       => n.text
  | .string s       => quote s
  | .array items    => '[' :: (itemsText items ++ [']'])
  | .object members => '{' :: (membersText members ++ ['}'])

def itemsText : List Json → List Char
  | []           => []
  | [v]          => text v
  | v :: w :: vs => text v ++ ',' :: itemsText (w :: vs)

def membersText : List (String × Json) → List Char
  | []                => []
  | [(n, v)]          => quote n ++ ':' :: text v
  | (n, v) :: m :: ms => quote n ++ ':' :: (text v ++ ',' :: membersText (m :: ms))

end

/-- The compact text of a value. -/
def print (v : Json) : String := String.ofList v.text

end NativeMessaging.Json
