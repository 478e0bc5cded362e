import NativeMessaging.Json.Record
import NativeMessaging.Message.Address

/-!
# Plugin — Line

The lines that the host and a plugin process exchange, one JSON object each.  The host starts with
`init` and the plugin answers `ready`; after that both sides send commands and responses.
-/

namespace NativeMessaging

open Json (Content)
open Shape (Mismatch elements)

/-- The version of the line protocol. -/
def protocolVersion : UInt32 := 1

/-- What the host tells a plugin process. -/
inductive HostMessage where
  | init (version : UInt32)
  | command (colony : ColonyId) (id : MessageId) (text : String)
  | response (colony : ColonyId) (id : MessageId) (text : String)
  | shutdown
  deriving DecidableEq, Repr

/-- What a plugin process tells the host. -/
inductive PluginMessage where
  | ready (name : String) (version : UInt32)
  | command (colony : ColonyId) (id : MessageId) (text : String)
  | response (colony : ColonyId) (id : MessageId) (text : String)
  deriving DecidableEq, Repr

namespace Line

/-! ### Writing -/

def callJson (kind : String) (colony : ColonyId) (id : MessageId) (text : String) : Json :=
  .object [
    ("type",     .string kind),
    ("colonyId", .ofUInt32 colony.val),
    ("cmdId",    .ofUInt32 id.val),
    ("msg",      .string text)]

end Line

def HostMessage.toJson : HostMessage → Json
  | .init version             =>
    .object [("type", .string "init"), ("protocol_version", .ofUInt32 version)]
  | .command colony id text  => Line.callJson "cmd" colony id text
  | .response colony id text => Line.callJson "resp" colony id text
  | .shutdown                => .object [("type", .string "shutdown")]

def PluginMessage.toJson : PluginMessage → Json
  | .ready name version      =>
    .object [("type", .string "ready"), ("name", .string name),
      ("protocol_version", .ofUInt32 version)]
  | .command colony id text  => Line.callJson "cmd" colony id text
  | .response colony id text => Line.callJson "resp" colony id text

def HostMessage.print (m : HostMessage) : String := m.toJson.print

def PluginMessage.print (m : PluginMessage) : String := m.toJson.print

namespace Line

/-! ### Reading -/

def versionField : Json.Field UInt32 := ⟨"protocol_version", Json.readUInt32, none⟩

def nameField : Json.Field String := ⟨"name", Json.readString, none⟩

/-- The colony of a call; `absent` is the one it is for where it names none. -/
def colonyField (absent : Option UInt32) : Json.Field UInt32 := ⟨"colonyId", Json.readUInt32, absent⟩

def idField : Json.Field UInt32 := ⟨"cmdId", Json.readUInt32, none⟩

def textField : Json.Field String := ⟨"msg", Json.readString, none⟩

/-- How a record of that many fields is named where its elements are too few. -/
def label (record : String) (size : Nat) : String :=
  s!"struct variant {record} with {elements size}"

/-- The fields of a call in either direction. -/
def readCall (record : String) (absentColony : Option UInt32) :
    Content → Except Mismatch (ColonyId × MessageId × String)
  | .members ms => do
    let colony := colonyField absentColony
    Shape.checkMembers [colony.shape, idField.shape, textField.shape] [] ms
    .ok (⟨← colony.ofMembers ms⟩, ⟨← idField.ofMembers ms⟩, ← textField.ofMembers ms)
  | .items vs   => do
    let label := label record 3
    let colony ← (colonyField absentColony).ofItems label 0 vs
    let id ← idField.ofItems label 1 vs
    let text ← textField.ofItems label 2 vs
    Shape.checkLength 3 vs
    .ok (⟨colony⟩, ⟨id⟩, text)

/-- The fields of the host's greeting. -/
def readInit : Content → Except Mismatch UInt32
  | .members ms => do
    Shape.checkMembers [versionField.shape] [] ms
    versionField.ofMembers ms
  | .items vs   => do
    let version ← versionField.ofItems (label "HostMessage::Init" 1) 0 vs
    Shape.checkLength 1 vs
    .ok version

/-- The fields of a plugin's greeting. -/
def readReady : Content → Except Mismatch (String × UInt32)
  | .members ms => do
    Shape.checkMembers [nameField.shape, versionField.shape] [] ms
    .ok (← nameField.ofMembers ms, ← versionField.ofMembers ms)
  | .items vs   => do
    let label := label "PluginMessage::Ready" 2
    let name ← nameField.ofItems label 0 vs
    let version ← versionField.ofItems label 1 vs
    Shape.checkLength 2 vs
    .ok (name, version)

/-- A record without fields. -/
def readNothing : Content → Except Mismatch Unit
  | .members _ => .ok ()
  | .items vs  => Shape.checkLength 0 vs

end Line

namespace HostMessage

inductive Kind where
  | init
  | command
  | response
  | shutdown
  deriving DecidableEq, Repr

def kinds : List (String × Kind) :=
  [("init", .init), ("cmd", .command), ("resp", .response), ("shutdown", .shutdown)]

def ofContent : Kind → Content → Except Mismatch HostMessage
  | .init,     content => do .ok (.init (← Line.readInit content))
  | .command,  content => do
    let (colony, id, text) ← Line.readCall "HostMessage::Command" none content
    .ok (.command colony id text)
  | .response, content => do
    let (colony, id, text) ← Line.readCall "HostMessage::Response" none content
    .ok (.response colony id text)
  | .shutdown, content => do
    Line.readNothing content
    .ok .shutdown

/-- The message that a text spells. -/
def decode (s : String) : Except Json.Error HostMessage :=
  Json.decodeKind "HostMessage" (Json.Decoder.choiceName kinds "variant identifier") ofContent s

end HostMessage

namespace PluginMessage

inductive Kind where
  | ready
  | command
  | response
  deriving DecidableEq, Repr

def kinds : List (String × Kind) :=
  [("ready", .ready), ("cmd", .command), ("resp", .response)]

def ofContent : Kind → Content → Except Mismatch PluginMessage
  | .ready,    content => do
    let (name, version) ← Line.readReady content
    .ok (.ready name version)
  | .command,  content => do
    let (colony, id, text) ← Line.readCall "PluginMessage::Command" (some 0) content
    .ok (.command colony id text)
  | .response, content => do
    let (colony, id, text) ← Line.readCall "PluginMessage::Response" (some 0) content
    .ok (.response colony id text)

/-- The message that a text spells. -/
def decode (s : String) : Except Json.Error PluginMessage :=
  Json.decodeKind "PluginMessage" (Json.Decoder.choiceName kinds "variant identifier") ofContent s

end PluginMessage

end NativeMessaging
