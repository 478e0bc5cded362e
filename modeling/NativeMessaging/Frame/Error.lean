import NativeMessaging.Text.Utf8

/-!
# Frame — Error

What can go wrong between a text and the stream of frames.
-/

namespace NativeMessaging.Frame

inductive Error where
  | io (reason : String)
  | truncated (read expected : Nat)
  | tooLarge (length limit : Nat)
  | invalidUtf8 (fault : Text.Utf8.Fault)
  | tooManyChunks (count : Nat)
  deriving DecidableEq, Repr

def Error.message : Error → String
  | .io reason               => s!"frame i/o failed: {reason}"
  | .truncated read expected => s!"stream ended inside a frame ({read} of {expected} bytes)"
  | .tooLarge length limit   => s!"frame of {length} bytes exceeds the {limit} byte limit"
  | .invalidUtf8 fault       => s!"frame is not valid UTF-8: {fault.message}"
  | .tooManyChunks count     =>
    s!"payload needs {count} chunks, more than a sequence id can address"

end NativeMessaging.Frame
