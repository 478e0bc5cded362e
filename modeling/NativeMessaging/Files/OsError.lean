/-!
# Files — OsError

What an operating system refuses, in its own words and numbers.
-/

namespace NativeMessaging.Files

inductive OsError where
  | notFound
  | permissionDenied
  | exists
  | notDirectory
  | isDirectory
  | brokenPipe
  | nameTooLong
  deriving DecidableEq, Repr

def OsError.text : OsError → String
  | .notFound         => "No such file or directory"
  | .permissionDenied => "Permission denied"
  | .exists           => "File exists"
  | .notDirectory     => "Not a directory"
  | .isDirectory      => "Is a directory"
  | .brokenPipe       => "Broken pipe"
  | .nameTooLong      => "File name too long"

def OsError.number : OsError → Nat
  | .notFound         => 2
  | .permissionDenied => 13
  | .exists           => 17
  | .notDirectory     => 20
  | .isDirectory      => 21
  | .brokenPipe       => 32
  | .nameTooLong      => 36

def OsError.message (e : OsError) : String := s!"{e.text} (os error {e.number})"

end NativeMessaging.Files
