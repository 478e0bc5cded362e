import NativeMessaging.Plugin.Line
import NativeMessaging.Proofs.Json.Record
import NativeMessaging.Proofs.Message.Chunker

/-!
# Plugin — the lines of both sides read back

The host and a plugin process each have messages of their own, and the two halves of a call are the
same lines on both sides.

* `HostMessage.decode_print`, `PluginMessage.decode_print`: the line of a message decodes to that
  message, whatever texts it carries.
* `HostMessage.echo`: the plugin's message that has the same line as the host's.
* `HostMessage.decode_of_echo`, `HostMessage.exists_decode_of_echo`: a call of the host, sent back,
  is that call of the plugin, and the other lines of the host are no messages of a plugin.
-/

namespace NativeMessaging

open Json (Printable ArePlain recordMembers decodeKind_print exists_decodeKind_print)

namespace Line

/-! ### The fields of a record -/

/-- Members that are numbers of 32 bits and texts, under other names than that of the kind. -/
theorem arePlain_of {ms : List (String × Json)}
    (h : ∀ m ∈ ms, m.1 ≠ Json.kindField ∧ ((∃ n, m.2 = .ofUInt32 n) ∨ ∃ s, m.2 = .string s)) :
    ArePlain ms := by
  intro m hm
  obtain ⟨hname, ⟨n, hvalue⟩ | ⟨s, hvalue⟩⟩ := h m hm
  · exact ⟨hname, hvalue ▸ Json.printable_ofUInt32 _ n⟩
  · exact ⟨hname, hvalue ▸ .string s⟩

theorem readUInt32_ofUInt32 (n : UInt32) : Json.readUInt32 (.ofUInt32 n) = .ok n := by
  rw [Json.ofUInt32, Json.readUInt32, if_pos n.toNat_lt, UInt32.ofNat_toNat]

/-- The members of a call behind its kind. -/
def callMembers (colony : ColonyId) (id : MessageId) (text : String) : List (String × Json) :=
  [("colonyId", .ofUInt32 colony.val), ("cmdId", .ofUInt32 id.val), ("msg", .string text)]

theorem arePlain_callMembers (colony : ColonyId) (id : MessageId) (text : String) :
    ArePlain (callMembers colony id text) :=
  arePlain_of (by simp [callMembers, Json.kindField])

/-- The fields of a call read back, whatever colony an absent one stands for. -/
theorem readCall_callMembers (record : String) (absent : Option UInt32) (colony : ColonyId)
    (id : MessageId) (text : String) :
    readCall record absent (.members (callMembers colony id text)) = .ok (colony, id, text) := by
  simp [readCall, callMembers, Shape.checkMembers, Shape.Field.shape, Shape.Field.ofMembers,
    colonyField, idField, textField, readUInt32_ofUInt32, Json.readString, List.lookup_cons,
    bind, Except.bind, Except.map]

/-- The member of the host's greeting behind its kind. -/
def initMembers (version : UInt32) : List (String × Json) :=
  [("protocol_version", .ofUInt32 version)]

theorem arePlain_initMembers (version : UInt32) : ArePlain (initMembers version) :=
  arePlain_of (by simp [initMembers, Json.kindField])

theorem readInit_initMembers (version : UInt32) :
    readInit (.members (initMembers version)) = .ok version := by
  simp [readInit, initMembers, Shape.checkMembers, Shape.Field.shape, Shape.Field.ofMembers,
    versionField, readUInt32_ofUInt32, bind, Except.bind, Except.map]

/-- The members of a plugin's greeting behind its kind. -/
def readyMembers (name : String) (version : UInt32) : List (String × Json) :=
  ("name", .string name) :: initMembers version

theorem arePlain_readyMembers (name : String) (version : UInt32) :
    ArePlain (readyMembers name version) :=
  arePlain_of (by simp [readyMembers, initMembers, Json.kindField])

theorem readReady_readyMembers (name : String) (version : UInt32) :
    readReady (.members (readyMembers name version)) = .ok (name, version) := by
  simp [readReady, readyMembers, initMembers, Shape.checkMembers, Shape.Field.shape,
    Shape.Field.ofMembers, nameField, versionField, readUInt32_ofUInt32, Json.readString,
    List.lookup_cons, bind, Except.bind, Except.map]

end Line

/-! ### The messages of the host -/

namespace HostMessage

theorem decode_record (name : String) {kind : Kind} (hkind : kinds.lookup name = some kind)
    {ms : List (String × Json)} (hms : ArePlain ms) {m : HostMessage}
    (hm : ofContent kind (.members ms) = .ok m) :
    decode (Json.object (recordMembers name ms)).print = .ok m := by
  rw [decode, decodeKind_print _ _ _ hkind hms, hm]
  rfl

/-- **The line of a message of the host** decodes to that message. -/
theorem decode_print (m : HostMessage) : decode m.print = .ok m := by
  cases m with
  | init version =>
      refine decode_record "init" rfl (Line.arePlain_initMembers version) ?_
      rw [ofContent, Line.readInit_initMembers]
      rfl
  | command colony id text =>
      refine decode_record "cmd" rfl (Line.arePlain_callMembers colony id text) ?_
      rw [ofContent, Line.readCall_callMembers]
      rfl
  | response colony id text =>
      refine decode_record "resp" rfl (Line.arePlain_callMembers colony id text) ?_
      rw [ofContent, Line.readCall_callMembers]
      rfl
  | shutdown => exact decode_record "shutdown" rfl (List.forall_mem_nil _) rfl

end HostMessage

/-! ### The messages of a plugin -/

namespace PluginMessage

theorem decode_record (name : String) {kind : Kind} (hkind : kinds.lookup name = some kind)
    {ms : List (String × Json)} (hms : ArePlain ms) {m : PluginMessage}
    (hm : ofContent kind (.members ms) = .ok m) :
    decode (Json.object (recordMembers name ms)).print = .ok m := by
  rw [decode, decodeKind_print _ _ _ hkind hms, hm]
  rfl

theorem exists_decode_record (name : String) (hkind : kinds.lookup name = none)
    (ms : List (String × Json)) :
    ∃ e, decode (Json.object (recordMembers name ms)).print = .error e :=
  exists_decodeKind_print _ _ _ hkind ms

/-- **The line of a message of a plugin** decodes to that message. -/
theorem decode_print (m : PluginMessage) : decode m.print = .ok m := by
  cases m with
  | ready name version =>
      refine decode_record "ready" rfl (Line.arePlain_readyMembers name version) ?_
      rw [ofContent, Line.readReady_readyMembers]
      rfl
  | command colony id text =>
      refine decode_record "cmd" rfl (Line.arePlain_callMembers colony id text) ?_
      rw [ofContent, Line.readCall_callMembers]
      rfl
  | response colony id text =>
      refine decode_record "resp" rfl (Line.arePlain_callMembers colony id text) ?_
      rw [ofContent, Line.readCall_callMembers]
      rfl

end PluginMessage

/-! ### Lines of the host, sent back -/

namespace HostMessage

/-- The plugin's message that a line of the host is, sent back. -/
def echo : HostMessage → Option PluginMessage
  | .command colony id text  => some (.command colony id text)
  | .response colony id text => some (.response colony id text)
  | .init _                  => none
  | .shutdown                => none

/-- **A call of the host, sent back**, is that call of the plugin. -/
theorem decode_of_echo {m : HostMessage} {m' : PluginMessage} (h : m.echo = some m') :
    PluginMessage.decode m.print = .ok m' := by
  cases m with
  | command colony id text =>
      obtain rfl := Option.some.inj h
      exact PluginMessage.decode_print (.command colony id text)
  | response colony id text =>
      obtain rfl := Option.some.inj h
      exact PluginMessage.decode_print (.response colony id text)
  | init version => cases h
  | shutdown => cases h

/-- **The other lines of the host** are no messages of a plugin. -/
theorem exists_decode_of_echo {m : HostMessage} (h : m.echo = none) :
    ∃ e, PluginMessage.decode m.print = .error e := by
  cases m with
  | command colony id text => cases h
  | response colony id text => cases h
  | init version => exact PluginMessage.exists_decode_record "init" rfl (Line.initMembers version)
  | shutdown => exact PluginMessage.exists_decode_record "shutdown" rfl []

end HostMessage

end NativeMessaging
