import NativeMessaging.Plugin.Relay
import NativeMessaging.Proofs.Frame.Decoder
import NativeMessaging.Proofs.Json.Record
import NativeMessaging.Proofs.Message.Grammar

/-!
# Plugin — the line of a call

Which lines of a plugin ask for a call to be relayed.

* `Line.CallFields`: the fields of a call, as the record has them; the colony may be absent.
* `Line.callFields_of_readCall`: what the reader of calls makes of a record are its fields.
* `Relay.callOf_eq_some_iff`: a line asks for a call where it spells the message of the call.
* `Relay.asks_iff`: the calls that lines ask for, one for each line that asks for one.
* `Relay.callsOf_append`: more lines do not change what the lines before them ask for.
-/

namespace NativeMessaging

open Json (Content)

/-! ### Fields -/

namespace Json

theorem eq_of_readUInt32 {v : Json} {n : UInt32} (h : readUInt32 v = .ok n) : v = .ofUInt32 n := by
  cases v with
  | number x =>
      cases x with
      | natural k =>
          rw [readUInt32] at h
          split at h
          · next hk =>
            obtain rfl := Except.ok.inj h
            rw [ofUInt32, UInt32.toNat_ofNat_of_lt' hk]
          · cases h
      | negative k => cases h
      | real x => cases h
  | null => cases h
  | bool b => cases h
  | string s => cases h
  | array vs => cases h
  | object ms => cases h

theorem eq_of_readString {v : Json} {s : String} (h : readString v = .ok s) : v = .string s := by
  cases v with
  | string s' => exact congrArg Json.string (Except.ok.inj h)
  | null => cases h
  | bool b => cases h
  | number n => cases h
  | array vs => cases h
  | object ms => cases h

/-- Something of another type is never read. -/
theorem exists_invalidType {α : Type} (expected : String) (cs : List Char) :
    ∃ fault, (Decoder.invalidType expected cs : Except Fault α) = .error fault := by
  rw [Decoder.invalidType]
  split
  · exact ⟨_, rfl⟩
  · exact ⟨_, rfl⟩
  · exact ⟨_, rfl⟩
  · cases readValue 0 0 _ with
    | error fault => exact ⟨fault, rfl⟩
    | ok r => exact ⟨_, rfl⟩

/-- What is behind white space is white space. -/
theorem blank_of_skipSpace {cs : List Char} (h : ∀ c ∈ cs, Text.isBlank c = true) :
    ∀ c ∈ Token.skipSpace cs, Text.isBlank c = true :=
  fun c hc => h c ((List.dropWhile_sublist _).mem hc)

end Json

namespace Line

/-- The fields of a call in a record: by name, where no colony stands for the host itself, or in
order. -/
inductive CallFields : Content → ColonyId → MessageId → String → Prop where
  | named {ms : List (String × Json)} {colony : ColonyId} {id : MessageId} {text : String}
      (hcolony : ms.lookup "colonyId" = some (.ofUInt32 colony.val))
      (hid : ms.lookup "cmdId" = some (.ofUInt32 id.val))
      (htext : ms.lookup "msg" = some (.string text)) : CallFields (.members ms) colony id text
  | unnamed {ms : List (String × Json)} {id : MessageId} {text : String}
      (hcolony : ms.lookup "colonyId" = none)
      (hid : ms.lookup "cmdId" = some (.ofUInt32 id.val))
      (htext : ms.lookup "msg" = some (.string text)) : CallFields (.members ms) ⟨0⟩ id text
  | inOrder (colony : ColonyId) (id : MessageId) (text : String) :
      CallFields (.items [.ofUInt32 colony.val, .ofUInt32 id.val, .string text]) colony id text

/-- What a reader finds in a field that has to be there. -/
theorem exists_lookup_of_ofMembers {α : Type} {field : Json.Field α} (hfield : field.absent = none)
    {ms : List (String × Json)} {a : α} (h : field.ofMembers ms = .ok a) :
    ∃ v, ms.lookup field.name = some v ∧ field.read v = .ok a := by
  rw [Shape.Field.ofMembers, hfield] at h
  cases hlookup : ms.lookup field.name with
  | some v => rw [hlookup] at h; exact ⟨v, rfl, h⟩
  | none => rw [hlookup] at h; cases h

theorem exists_getElem?_of_ofItems {α : Type} {field : Json.Field α}
    (hfield : field.absent = none) {label : String} {i : Nat} {vs : List Json} {a : α}
    (h : field.ofItems label i vs = .ok a) : ∃ v, vs[i]? = some v ∧ field.read v = .ok a := by
  rw [Shape.Field.ofItems, hfield] at h
  cases hget : vs[i]? with
  | some v => rw [hget] at h; exact ⟨v, rfl, h⟩
  | none => rw [hget] at h; cases h

/-- What a reader finds in a field that stands for `a` where it is absent. -/
theorem ofMembers_of_absent {α : Type} {field : Json.Field α} {a b : α}
    (hfield : field.absent = some a) {ms : List (String × Json)} (h : field.ofMembers ms = .ok b) :
    (∃ v, ms.lookup field.name = some v ∧ field.read v = .ok b) ∨
      ms.lookup field.name = none ∧ b = a := by
  rw [Shape.Field.ofMembers, hfield] at h
  cases hlookup : ms.lookup field.name with
  | some v => rw [hlookup] at h; exact .inl ⟨v, rfl, h⟩
  | none => rw [hlookup] at h; exact .inr ⟨rfl, (Except.ok.inj h).symm⟩

/-- **The fields of a call**, where the reader of calls accepts a record. -/
theorem callFields_of_readCall {record : String} {content : Content} {colony : ColonyId}
    {id : MessageId} {text : String}
    (h : readCall record (some 0) content = .ok (colony, id, text)) :
    CallFields content colony id text := by
  cases content with
  | members ms =>
      obtain ⟨-, -, h⟩ := bind_eq_ok_iff.mp h
      obtain ⟨colony', hcolony, h⟩ := bind_eq_ok_iff.mp h
      obtain ⟨id', hid, h⟩ := bind_eq_ok_iff.mp h
      obtain ⟨text', htext, h⟩ := bind_eq_ok_iff.mp h
      obtain ⟨rfl, rfl, rfl⟩ : ⟨colony'⟩ = colony ∧ ⟨id'⟩ = id ∧ text' = text := by
        simpa using Except.ok.inj h
      obtain ⟨vid, hvid, hid⟩ := exists_lookup_of_ofMembers rfl hid
      obtain ⟨vtext, hvtext, htext⟩ := exists_lookup_of_ofMembers rfl htext
      obtain rfl := Json.eq_of_readUInt32 hid
      obtain rfl := Json.eq_of_readString htext
      rcases ofMembers_of_absent rfl hcolony with ⟨vcolony, hvcolony, hcolony⟩ | ⟨hnone, rfl⟩
      · obtain rfl := Json.eq_of_readUInt32 hcolony
        exact .named hvcolony hvid hvtext
      · exact .unnamed hnone hvid hvtext
  | items vs =>
      obtain ⟨colony', hcolony, h⟩ := bind_eq_ok_iff.mp h
      obtain ⟨id', hid, h⟩ := bind_eq_ok_iff.mp h
      obtain ⟨text', htext, h⟩ := bind_eq_ok_iff.mp h
      obtain ⟨_, hlength, h⟩ := bind_eq_ok_iff.mp h
      obtain ⟨rfl, rfl, rfl⟩ : ⟨colony'⟩ = colony ∧ ⟨id'⟩ = id ∧ text' = text := by
        simpa using Except.ok.inj h
      obtain ⟨vid, hvid, hid⟩ := exists_getElem?_of_ofItems rfl hid
      obtain ⟨vtext, hvtext, htext⟩ := exists_getElem?_of_ofItems rfl htext
      obtain rfl := Json.eq_of_readUInt32 hid
      obtain rfl := Json.eq_of_readString htext
      -- there is an element at the last of three places, and none behind it
      have hlong : ¬ 3 < vs.length := fun hlt => by
        rw [Shape.checkLength, if_neg (by omega)] at hlength
        cases hlength
      obtain ⟨vcolony, v₁, v₂, rfl⟩ : ∃ v₀ v₁ v₂, vs = [v₀, v₁, v₂] := by
        have hlast := (List.getElem?_eq_some_iff.mp hvtext).1
        exact List.length_eq_three.mp (by omega)
      obtain rfl := Json.eq_of_readUInt32 (v := vcolony) hcolony
      obtain rfl := Option.some.inj hvid
      obtain rfl := Option.some.inj hvtext
      exact .inOrder ⟨colony'⟩ ⟨id'⟩ text'

end Line

/-! ### Lines that ask for a call -/

namespace PluginMessage

/-- The kind of record that a text spells, and the other fields of the record. -/
def recordOf (s : String) : Option (Kind × Content) :=
  match Json.readKind "PluginMessage" (Json.Decoder.choiceName kinds "variant identifier")
      (s.toList.length + 1) s.toList with
  | .ok (record, _) => some record
  | .error _        => none

/-- What is decoded is a record that has that content. -/
theorem exists_recordOf_of_decode {s : String} {m : PluginMessage} (h : decode s = .ok m) :
    ∃ kind content, recordOf s = some (kind, content) ∧ ofContent kind content = .ok m := by
  rw [decode, Json.decodeKind] at h
  rw [recordOf]
  cases hread : Json.readKind "PluginMessage" (Json.Decoder.choiceName kinds "variant identifier")
      (s.toList.length + 1) s.toList with
  | error fault => rw [hread] at h; cases h
  | ok r =>
      obtain ⟨⟨kind, content⟩, rest⟩ := r
      rw [hread] at h
      dsimp only at h
      refine ⟨kind, content, rfl, ?_⟩
      cases hcontent : ofContent kind content with
      | error e => rw [hcontent] at h; cases h
      | ok m' =>
          rw [hcontent] at h
          cases hfinish : Json.finish rest with
          | error fault => rw [hfinish] at h; cases h
          | ok u =>
              rw [hfinish] at h
              obtain rfl := Except.ok.inj h
              rfl

/-- White space is no message. -/
theorem exists_decode_of_isAllBlank {s : String} (h : Text.isAllBlank s = true) :
    ∃ e, decode s = .error e := by
  obtain ⟨fault, hfault⟩ : ∃ fault, Json.readKind "PluginMessage"
      (Json.Decoder.choiceName kinds "variant identifier") (s.toList.length + 1) s.toList =
        .error fault := by
    rw [Json.readKind]
    have hblank := Json.blank_of_skipSpace (List.all_eq_true.mp h)
    split
    · next cs hcs =>
      exact absurd (hblank '{' (hcs ▸ List.mem_cons_self ..)) (by decide)
    · next cs hcs =>
      exact absurd (hblank '[' (hcs ▸ List.mem_cons_self ..)) (by decide)
    · exact Json.exists_invalidType _ _
  rw [decode, Json.decodeKind, hfault]
  exact ⟨_, rfl⟩

end PluginMessage

namespace Relay

namespace Call

/-- The message of a plugin that asks for a call. -/
def message (c : Call) : PluginMessage :=
  match c.direction with
  | .command  => .command c.colony c.id c.text
  | .response => .response c.colony c.id c.text

/-- The kind of record that asks for a call. -/
def kind (c : Call) : PluginMessage.Kind :=
  match c.direction with
  | .command  => .command
  | .response => .response

end Call

/-- A line asks for a call: it spells its message, in a record that has the fields of the call. -/
structure Spells (line : String) (c : Call) : Prop where
  message : PluginMessage.decode line = .ok c.message
  fields : ∃ content, PluginMessage.recordOf line = some (c.kind, content) ∧
    Line.CallFields content c.colony c.id c.text

/-- The fields come with the message. -/
theorem Spells.of_message {line : String} {c : Call}
    (h : PluginMessage.decode line = .ok c.message) : Spells line c := by
  obtain ⟨kind, content, hrecord, hcontent⟩ := PluginMessage.exists_recordOf_of_decode h
  refine ⟨h, content, ?_⟩
  obtain ⟨direction, colony, id, text⟩ := c
  cases kind with
  | ready =>
      obtain ⟨r, -, hr⟩ := bind_eq_ok_iff.mp hcontent
      cases direction <;> cases hr
  | command =>
      obtain ⟨r, hread, hr⟩ := bind_eq_ok_iff.mp hcontent
      cases direction with
      | command =>
          cases hr
          exact ⟨hrecord, Line.callFields_of_readCall hread⟩
      | response => cases hr
  | response =>
      obtain ⟨r, hread, hr⟩ := bind_eq_ok_iff.mp hcontent
      cases direction with
      | command => cases hr
      | response =>
          cases hr
          exact ⟨hrecord, Line.callFields_of_readCall hread⟩

/-- **A line asks for a call** where it spells the message of the call. -/
theorem callOf_eq_some_iff {line : String} {c : Call} :
    callOf line = some c ↔ PluginMessage.decode line = .ok c.message := by
  rw [callOf]
  split
  · next hblank =>
    obtain ⟨e, he⟩ := PluginMessage.exists_decode_of_isAllBlank hblank
    rw [he]
    constructor <;> intro h <;> cases h
  · obtain ⟨direction, colony, id, text⟩ := c
    cases hdecode : PluginMessage.decode line with
    | error e => constructor <;> intro h <;> cases h
    | ok m => cases m <;> cases direction <;> simp [Call.message]

theorem callOf_eq_none_iff {line : String} : callOf line = none ↔ ∀ c, ¬ Spells line c := by
  rw [Option.eq_none_iff_forall_ne_some]
  exact forall_congr' fun c => not_congr
    ⟨fun h => .of_message (callOf_eq_some_iff.mp h), fun h => callOf_eq_some_iff.mpr h.message⟩

/-- The calls that lines ask for, one for each line that asks for one: every other line is skipped,
up to the first that is not text. -/
inductive Asks : List (List UInt8) → List Call → Prop where
  | nil : Asks [] []
  | broken {line : List UInt8} {lines : List (List UInt8)}
      (h : ∀ text, Text.Utf8.encode text ≠ line) : Asks (line :: lines) []
  | call {text : String} {lines : List (List UInt8)} {c : Call} {calls : List Call}
      (h : Spells text c) (t : Asks lines calls) :
      Asks (Text.Utf8.encode text :: lines) (c :: calls)
  | skip {text : String} {lines : List (List UInt8)} {calls : List Call}
      (h : ∀ c, ¬ Spells text c) (t : Asks lines calls) :
      Asks (Text.Utf8.encode text :: lines) calls

theorem callsOf_text (text : String) (lines : List (List UInt8)) :
    (callsOf (Text.Utf8.encode text :: lines)).1 =
      (callOf text).toList ++ (callsOf lines).1 := by
  rw [callsOf, Text.Utf8.decode_encode]

theorem callsOf_broken {line : List UInt8} (h : ∀ text, Text.Utf8.encode text ≠ line)
    (lines : List (List UInt8)) : (callsOf (line :: lines)).1 = [] := by
  rw [callsOf]
  cases hdecode : Text.Utf8.decode line with
  | error fault => rfl
  | ok text => exact absurd (Text.Utf8.encode_of_decode hdecode) (h text)

/-- The host takes the calls that the lines ask for. -/
theorem asks_callsOf (lines : List (List UInt8)) : Asks lines (callsOf lines).1 := by
  induction lines with
  | nil => exact .nil
  | cons line lines ih =>
      by_cases hline : ∀ text, Text.Utf8.encode text ≠ line
      · rw [callsOf_broken hline]
        exact .broken hline
      · obtain ⟨text, rfl⟩ := not_forall_not.mp hline
        rw [callsOf_text]
        cases hcall : callOf text with
        | none => exact .skip (callOf_eq_none_iff.mp hcall) ih
        | some c => exact .call (.of_message (callOf_eq_some_iff.mp hcall)) ih

/-- **The calls that lines ask for** are those that the host takes. -/
theorem asks_iff {lines : List (List UInt8)} {calls : List Call} :
    Asks lines calls ↔ (callsOf lines).1 = calls := by
  refine ⟨fun h => ?_, fun h => h ▸ asks_callsOf lines⟩
  induction h with
  | nil => rfl
  | broken h => exact callsOf_broken h _
  | call h t ih =>
      rw [callsOf_text, callOf_eq_some_iff.mpr h.message, ih]
      rfl
  | skip h t ih =>
      rw [callsOf_text, callOf_eq_none_iff.mpr h, ih]
      rfl

/-- A call, a line that is not text, and a call that is not looked at. -/
example :
    callsOf [Text.Utf8.encode (PluginMessage.command ⟨7⟩ ⟨1⟩ "a").print, [255],
      Text.Utf8.encode (PluginMessage.command ⟨7⟩ ⟨2⟩ "b").print] =
      ([⟨.command, ⟨7⟩, ⟨1⟩, "a"⟩], true) := by decide +kernel

/-- Lines that come later take back no call. -/
theorem callsOf_append (lines later : List (List UInt8)) :
    (callsOf lines).1 <+: (callsOf (lines ++ later)).1 := by
  induction lines with
  | nil => exact List.nil_prefix
  | cons line lines ih =>
      rw [List.cons_append]
      by_cases hline : ∀ text, Text.Utf8.encode text ≠ line
      · rw [callsOf_broken hline]
        exact List.nil_prefix
      · obtain ⟨text, rfl⟩ := not_forall_not.mp hline
        rw [callsOf_text, callsOf_text]
        exact (List.prefix_append_right_inj _).mpr ih

end Relay

end NativeMessaging
