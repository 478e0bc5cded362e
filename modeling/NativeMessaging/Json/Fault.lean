import NativeMessaging.Shape.Mismatch

/-!
# Json — Fault

What can be wrong with a text that should be a JSON document, and where.  A reader works on the rest
of the text, so a `Fault` keeps the rest it stopped at; `Fault.locate` turns that into the line and
the byte column within the whole text.
-/

namespace NativeMessaging.Json

inductive Cause where
  | eofInValue
  | eofInArray
  | eofInObject
  | eofInString
  | expectedColon
  | expectedCommaOrBracket
  | expectedCommaOrBrace
  | expectedWord
  | expectedValue
  | invalidEscape
  | invalidNumber
  | numberOutOfRange
  | controlCharacter
  | nameNotString
  | loneSurrogate
  | unpairedSurrogate
  | trailingComma
  | trailingCharacters
  | nestedTooDeep
  | shape (mismatch : Shape.Mismatch)
  deriving DecidableEq, Repr

def Cause.message : Cause → String
  | .eofInValue             => "EOF while parsing a value"
  | .eofInArray             => "EOF while parsing a list"
  | .eofInObject            => "EOF while parsing an object"
  | .eofInString            => "EOF while parsing a string"
  | .expectedColon          => "expected `:`"
  | .expectedCommaOrBracket => "expected `,` or `]`"
  | .expectedCommaOrBrace   => "expected `,` or `\x7d`"
  | .expectedWord           => "expected ident"
  | .expectedValue          => "expected value"
  | .invalidEscape          => "invalid escape"
  | .invalidNumber          => "invalid number"
  | .numberOutOfRange       => "number out of range"
  | .controlCharacter       => "control character (\\u0000-\\u001F) found while parsing a string"
  | .nameNotString          => "key must be a string"
  | .loneSurrogate          => "lone leading surrogate in hex escape"
  | .unpairedSurrogate      => "unexpected end of hex escape"
  | .trailingComma          => "trailing comma"
  | .trailingCharacters     => "trailing characters"
  | .nestedTooDeep          => "recursion limit exceeded"
  | .shape mismatch         => mismatch.message

/-- A place in a text: lines count from one, columns count the bytes before the place. -/
structure Position where
  line : Nat
  column : Nat
  deriving DecidableEq, Repr

/-- The bytes that a text takes. -/
def byteSize (cs : List Char) : Nat := cs.foldl (fun n c => n + c.utf8Size) 0

/-- The place `offset` bytes further on. -/
def Position.advance (here : Position) : (offset : Nat) → List Char → Position
  | offset, []      => ⟨here.line, here.column + offset⟩
  | offset, c :: cs =>
    if offset < c.utf8Size then ⟨here.line, here.column + offset⟩
    else if c = '\n' then Position.advance ⟨here.line + 1, 0⟩ (offset - c.utf8Size) cs
    else Position.advance ⟨here.line, here.column + c.utf8Size⟩ (offset - c.utf8Size) cs

/-- Why a text is not the document it should be; a mismatch that is found after the reading has no
place. -/
structure Error where
  cause : Cause
  position : Option Position
  deriving DecidableEq, Repr

def Error.message : Error → String
  | ⟨cause, none⟩              => cause.message
  | ⟨cause, some ⟨line, col⟩⟩ => s!"{cause.message} at line {line} column {col}"

/-- A fault at the rest of the text that was left, or `past` bytes into it. -/
structure Fault where
  cause : Cause
  rest : List Char
  past : Nat
  deriving DecidableEq, Repr

/-- The fault as an error of the whole text; no place lies beyond the text's end. -/
def Fault.locate (text : List Char) (fault : Fault) : Error :=
  let size := byteSize text
  let offset := min size (size - byteSize fault.rest + fault.past)
  ⟨fault.cause, some (Position.advance ⟨1, 0⟩ offset text)⟩

/-- Reads a value from the start of a text and gives the rest of the text with it. -/
abbrev Reader (α : Type) := List Char → Except Fault (α × List Char)

/-- Fails at the first character of the rest, having looked at it. -/
def failAt {α : Type} (cause : Cause) (rest : List Char) : Except Fault α :=
  .error ⟨cause, rest, 1⟩

/-- Fails before the rest. -/
def failBefore {α : Type} (cause : Cause) (rest : List Char) : Except Fault α :=
  .error ⟨cause, rest, 0⟩

end NativeMessaging.Json
