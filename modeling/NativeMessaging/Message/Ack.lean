import NativeMessaging.Json.Printer

/-!
# Message — Ack

The record with which the host answers what it decides alone: that a plugin was loaded, or that
something failed.
-/

namespace NativeMessaging

namespace Ack

inductive Status where
  | success
  | error
  deriving DecidableEq, Repr

def Status.word : Status → String
  | .success => "success"
  | .error   => "error"

end Ack

structure Ack where
  status : Ack.Status
  plugin : Option String
  message : Option String
  deriving DecidableEq, Repr

namespace Ack

/-- The plugin of that name was loaded. -/
def pluginLoaded (name : String) : Ack := ⟨.success, some name, none⟩

/-- Something failed. -/
def failure (message : String) : Ack := ⟨.error, none, some message⟩

/-- The member of a field that is present. -/
def member (name : String) (value : Option String) : List (String × Json) :=
  (value.map (fun s => (name, Json.string s))).toList

/-- An absent field has no member. -/
def toJson (ack : Ack) : Json :=
  .object (("status", .string ack.status.word) ::
    (member "plugin" ack.plugin ++ member "message" ack.message))

/-- The text of an ack. -/
def print (ack : Ack) : String := ack.toJson.print

end Ack

end NativeMessaging
