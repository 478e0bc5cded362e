import NativeMessaging.Subprocess.Launch

/-!
# Subprocess — Installed

The files that every system has: the programs, and the directories and files around them.
-/

namespace NativeMessaging.Subprocess

open Files (Entries Node)

/-- The names of the programs. -/
def programNames : List String :=
  [Launch.shellName, "cat", "sed", "sleep", "printf", "echo", "pwd", "true", "false", "test", "["]

/-- A directory with all programs. -/
def programDirectory : Node :=
  .directory (programNames.map fun name => (name, .file (Text.Utf8.encode name) true 0)) 0

def emptyDirectory : Node := .directory [] 0

/-- The list of users. -/
def users : Node := .file (Text.Utf8.encode "root:x:0:0:root:/root:/bin/sh\n") false 0

/-- What stands at the root of a system. -/
def installed : Entries :=
  [("bin", programDirectory),
    ("dev", .directory [("null", .file [] false 0)] 0),
    ("etc", .directory [("passwd", users)] 0),
    ("home", emptyDirectory),
    ("root", emptyDirectory),
    ("tmp", emptyDirectory),
    ("usr", .directory [("bin", programDirectory)] 0),
    ("var", .directory [("tmp", emptyDirectory)] 0)]

end NativeMessaging.Subprocess
