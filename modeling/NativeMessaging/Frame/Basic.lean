import NativeMessaging.Frame.Error

/-!
# Frame — Basic

A frame is a text behind the number of its bytes, in four bytes with the lowest first.
-/

namespace NativeMessaging.Frame

/-- The bytes of a frame in front of its text. -/
def headerSize : Nat := 4

/-- A number in four bytes, the lowest first. -/
def header (n : Nat) : List UInt8 :=
  [UInt8.ofNat n, UInt8.ofNat (n / 256), UInt8.ofNat (n / 65536), UInt8.ofNat (n / 16777216)]

/-- The number that bytes spell, the lowest first. -/
def ofHeader : List UInt8 → Nat
  | []      => 0
  | b :: bs => b.toNat + 256 * ofHeader bs

/-- The bytes of the frame of a text. -/
def encode (text : String) : Except Error (List UInt8) :=
  let bytes := Text.Utf8.encode text
  if text.utf8ByteSize < UInt32.size then .ok (header text.utf8ByteSize ++ bytes)
  else .error (.tooLarge text.utf8ByteSize (UInt32.size - 1))

end NativeMessaging.Frame
