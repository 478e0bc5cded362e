/-!
# Text — UTF-8

Text as bytes and back.  `encode` writes a text as UTF-8, `decode` reads it back or says where the
bytes stop being UTF-8: at the first byte that no character can start or continue with, or at a
character that the end of the bytes cuts short.
-/

namespace NativeMessaging.Text.Utf8

/-- Where bytes stop being UTF-8: everything before `validUpTo` is text, and from there either
`some n` bytes can belong to no character, or the bytes end inside one. -/
structure Fault where
  validUpTo : Nat
  invalid : Option Nat
  deriving DecidableEq, Repr

/-- The wording of a fault. -/
def Fault.message : Fault → String
  | ⟨start, some n⟩ => s!"invalid utf-8 sequence of {n} bytes from index {start}"
  | ⟨start, none⟩   => s!"incomplete utf-8 byte sequence from index {start}"

/-- What a first byte announces: a character of one byte, a longer one with the range its second
byte has to lie in, or nothing. -/
inductive Lead where
  | single
  | multiple (more : Nat) (low high : UInt8)
  | invalid
  deriving DecidableEq, Repr

/-- The announcement of a first byte; the ranges leave out overlong forms, surrogates and
everything beyond U+10FFFF. -/
def lead (b : UInt8) : Lead :=
  if b < 0x80 then .single
  else if b < 0xC2 then .invalid
  else if b < 0xE0 then .multiple 1 0x80 0xBF
  else if b = 0xE0 then .multiple 2 0xA0 0xBF
  else if b = 0xED then .multiple 2 0x80 0x9F
  else if b < 0xF0 then .multiple 2 0x80 0xBF
  else if b = 0xF0 then .multiple 3 0x90 0xBF
  else if b < 0xF4 then .multiple 3 0x80 0xBF
  else if b = 0xF4 then .multiple 3 0x80 0x8F
  else .invalid

/-- A character under way: where it started, how many of its bytes are there, how many are missing
and the range of the next one. -/
structure Partial where
  start : Nat
  taken : Nat
  missing : Nat
  low : UInt8
  high : UInt8
  deriving DecidableEq, Repr

/-- The first fault in the bytes from index `i` on, inside the character `p` if there is one. -/
def findFault : List UInt8 → (i : Nat) → (p : Option Partial) → Option Fault
  | [],      _, none   => none
  | [],      _, some p => some ⟨p.start, none⟩
  | b :: bs, i, none   =>
    match lead b with
    | .single               => findFault bs (i + 1) none
    | .multiple more lo hi  => findFault bs (i + 1) (some ⟨i, 1, more, lo, hi⟩)
    | .invalid              => some ⟨i, some 1⟩
  | b :: bs, i, some p =>
    if p.low ≤ b ∧ b ≤ p.high then
      if p.missing ≤ 1 then findFault bs (i + 1) none
      else findFault bs (i + 1) (some ⟨p.start, p.taken + 1, p.missing - 1, 0x80, 0xBF⟩)
    else some ⟨p.start, some p.taken⟩

/-- The bytes of a text. -/
def encode (s : String) : List UInt8 := s.toUTF8.data.toList

/-- The text that the bytes spell, or the place where they stop being UTF-8. -/
def decode (bytes : List UInt8) : Except Fault String :=
  match String.fromUTF8? ⟨bytes.toArray⟩ with
  | some s => .ok s
  | none   => .error ((findFault bytes 0 none).getD ⟨0, none⟩)

end NativeMessaging.Text.Utf8
