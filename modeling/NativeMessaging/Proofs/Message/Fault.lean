import NativeMessaging.Proofs.Message.Grammar

/-!
# Message — what is wrong with a text that is rejected

The faults of a text, each with the kind of rejection that it calls for, said of the members of the
object that the text spells.  A chunk may have several faults.

* `fault_of_controlOf`, `fault_of_chunkOf`: an object is rejected for one of its faults.
* `Fault.not_accepted`: a text with a fault is not read as anything.
* `rejected_for_fault`: texts are rejected exactly where they have a fault, for one that they have.
-/

namespace NativeMessaging

open Json (Holds Lacks IsNatural)

/-- What a rejection is about, without the numbers and the wording. -/
inductive Rejection.Kind where
  | malformed
  | missingField (name : String)
  | missingSequenceId
  | sequenceSizeMismatch
  | unknownMessage
  | invalidChunkCount
  | sequenceOutOfRange
  deriving DecidableEq, Repr

def Rejection.kind : Rejection → Rejection.Kind
  | .malformed _                => .malformed
  | .missingField name          => .missingField name
  | .missingSequenceId          => .missingSequenceId
  | .sequenceSizeMismatch _ _ _ => .sequenceSizeMismatch
  | .unknownMessage _           => .unknownMessage
  | .invalidChunkCount          => .invalidChunkCount
  | .sequenceOutOfRange _ _     => .sequenceOutOfRange

namespace Envelope

variable {members : List (String × Json)} {raw : String} {kind : Rejection.Kind}

/-- The member of that name is there and is no number of 32 bits. -/
def Misnumbered (members : List (String × Json)) (name : String) : Prop :=
  ¬ Lacks members name ∧ ∀ n, ¬ HasNumber members name n

/-- What is wrong with an object that has a command: the command is no request for a plugin, or the
request has no mimetype, or one that is no text. -/
inductive ControlFault (members : List (String × Json)) : Rejection.Kind → Prop where
  | command {v : Json} (hcommand : Holds members "cmd" v) (hother : v ≠ .string "create") :
      ControlFault members .unknownMessage
  | noMimetype (hcommand : Holds members "cmd" (.string "create"))
      (hlacks : Lacks members "mimetype") : ControlFault members (.missingField "mimetype")
  | mimetype {v : Json} (hcommand : Holds members "cmd" (.string "create"))
      (hmimetype : Holds members "mimetype" v) (hother : ∀ m, v ≠ .string m) :
      ControlFault members .malformed

/-- What is wrong with an object that has a text and no command: the count, the id, the colony or
the place is no number of 32 bits, where only the count and the id have to be there; the text is
none; there are no chunks; or, of several chunks, the place is not said or is none of theirs. -/
inductive ChunkFault (members : List (String × Json)) : Rejection.Kind → Prop where
  | count (hcount : ∀ n, ¬ HasNumber members "c" n) : ChunkFault members .malformed
  | id (hid : ∀ n, ¬ HasNumber members "cmdId" n) : ChunkFault members .malformed
  | colony (hcolony : Misnumbered members "colonyId") : ChunkFault members .malformed
  | text (htext : ∀ s, ¬ Holds members "msg" (.string s)) : ChunkFault members .malformed
  | noChunks (hcount : HasNumber members "c" 0) : ChunkFault members .invalidChunkCount
  | noPlace {count : UInt32} (hcount : HasNumber members "c" count) (hseveral : 1 < count)
      (hlacks : Lacks members "n") : ChunkFault members .missingSequenceId
  | place {count : UInt32} (hcount : HasNumber members "c" count) (hseveral : 1 < count)
      (hplace : Misnumbered members "n") : ChunkFault members .malformed
  | range {count place : UInt32} (hcount : HasNumber members "c" count) (hseveral : 1 < count)
      (hplace : HasNumber members "n" place) (hrange : place = 0 ∨ count < place) :
      ChunkFault members .sequenceOutOfRange

/-- What is wrong with a text. -/
inductive Fault (raw : String) : Rejection.Kind → Prop where
  | noObject (hraw : ∀ members, Json.parse raw ≠ .ok (.object members)) : Fault raw .malformed
  | control {members : List (String × Json)} {kind : Rejection.Kind}
      (hraw : Json.parse raw = .ok (.object members)) (hfault : ControlFault members kind) :
      Fault raw kind
  | chunk {members : List (String × Json)} {kind : Rejection.Kind}
      (hraw : Json.parse raw = .ok (.object members)) (hcommand : Lacks members "cmd")
      (htext : ¬ Lacks members "msg") (hfault : ChunkFault members kind) : Fault raw kind
  | neither {members : List (String × Json)} (hraw : Json.parse raw = .ok (.object members))
      (hcommand : Lacks members "cmd") (htext : Lacks members "msg") : Fault raw .unknownMessage

/-! ### Rejections -/

/-- A member that has to be a number of 32 bits where it is there, and is none. -/
theorem misnumbered_of_number? {name : String} {r : Rejection}
    (h : number? (.object members) name = .error r) :
    r.kind = .malformed ∧ Misnumbered members name := by
  have hnone : ∀ found, number? (.object members) name ≠ .ok found := fun found heq => by
    rw [h] at heq
    cases heq
  refine ⟨?_, fun hlacks => ?_, fun n hhas => ?_⟩
  · rw [number?] at h
    split at h
    · cases h
    · split at h
      · cases h
      · obtain rfl := Except.error.inj h
        rfl
  · exact hnone none (number?_eq_ok_iff.mpr (.inr ⟨rfl, hlacks⟩))
  · exact hnone (some n) (number?_eq_ok_iff.mpr (.inl ⟨n, rfl, hhas⟩))

/-- A member that has to be there and to be a number of 32 bits, and is not. -/
theorem not_hasNumber_of_number {name : String} {r : Rejection}
    (h : number (.object members) name = .error r) :
    r.kind = .malformed ∧ ∀ n, ¬ HasNumber members name n := by
  refine ⟨?_, fun n hhas => ?_⟩
  · rcases bind_eq_error_iff.mp h with hfound | ⟨found, hfound, hread⟩
    · exact (misnumbered_of_number? hfound).1
    · cases found with
      | some n => cases hread
      | none =>
          obtain rfl := Except.error.inj hread
          rfl
  · rw [number_eq_ok_iff.mpr hhas] at h
    cases h

theorem fault_of_sequence {count : UInt32} {r : Rejection}
    (hcount : HasNumber members "c" count) (h : sequence (.object members) count = .error r) :
    ChunkFault members r.kind := by
  rw [sequence] at h
  split at h
  · next hseveral =>
    rcases bind_eq_error_iff.mp h with hfound | ⟨found, hfound, hread⟩
    · obtain ⟨hkind, hplace⟩ := misnumbered_of_number? hfound
      rw [hkind]
      exact .place hcount hseveral hplace
    · rcases number?_eq_ok_iff.mp hfound with ⟨n, rfl, hhas⟩ | ⟨rfl, hlacks⟩
      · dsimp only at hread
        split at hread
        · next hrange =>
          obtain rfl := Except.error.inj hread
          exact .range hcount hseveral hhas hrange
        · cases hread
      · obtain rfl := Except.error.inj hread
        exact .noPlace hcount hseveral hlacks
  · cases h

/-- **A chunk is rejected for one of its faults.** -/
theorem fault_of_chunkOf {r : Rejection} (h : chunkOf (.object members) = .error r) :
    ChunkFault members r.kind := by
  rcases bind_eq_error_iff.mp h with hread | ⟨count, hcount, h⟩
  · obtain ⟨hkind, hnone⟩ := not_hasNumber_of_number hread
    rw [hkind]
    exact .count hnone
  rw [number_eq_ok_iff] at hcount
  rcases bind_eq_error_iff.mp h with hread | ⟨id, -, h⟩
  · obtain ⟨hkind, hnone⟩ := not_hasNumber_of_number hread
    rw [hkind]
    exact .id hnone
  rcases bind_eq_error_iff.mp h with hread | ⟨colony, -, h⟩
  · obtain ⟨hkind, hcolony⟩ := misnumbered_of_number? hread
    rw [hkind]
    exact .colony hcolony
  split at h
  · next hzero =>
    obtain rfl := Except.error.inj h
    exact .noChunks (hzero ▸ hcount)
  rcases bind_eq_error_iff.mp h with hplace | ⟨place, -, h⟩
  · exact fault_of_sequence hcount hplace
  split at h
  · next hnone =>
    obtain rfl := Except.error.inj h
    refine .text fun s hs => ?_
    rw [bind_string?_eq_some_iff.mpr hs] at hnone
    cases hnone
  · cases h

/-- **An object with a command is rejected for its fault.** -/
theorem fault_of_controlOf {command : Json} {r : Rejection} (hcommand : Holds members "cmd" command)
    (h : controlOf (.object members) command = .error r) : ControlFault members r.kind := by
  rw [controlOf] at h
  split at h
  · next hcreate =>
    rw [Json.string?_eq_some_iff] at hcreate
    subst hcreate
    split at h
    · next hnone =>
      obtain rfl := Except.error.inj h
      exact .noMimetype hcommand (Json.lookup_eq_none_iff.mp hnone)
    · cases h
    · next v hother hsome =>
      obtain rfl := Except.error.inj h
      exact .mimetype hcommand (Json.lookup_eq_some_iff.mp hsome) fun m heq => hother m heq
  · next s hother hsome =>
    rw [Json.string?_eq_some_iff] at hsome
    subst hsome
    obtain rfl := Except.error.inj h
    exact .command hcommand fun heq => hother (Json.string.inj heq)
  · next hnone =>
    obtain rfl := Except.error.inj h
    refine .command hcommand fun heq => ?_
    rw [heq] at hnone
    cases hnone

/-- A text is rejected for one of its faults. -/
theorem fault_of_parse {r : Rejection} (h : parse raw = .error r) : Fault raw r.kind := by
  rw [parse] at h
  cases hraw : Json.parse raw with
  | error e =>
      rw [hraw] at h
      obtain rfl := Except.error.inj h
      exact .noObject fun members heq => by rw [hraw] at heq; cases heq
  | ok v =>
      rw [hraw] at h
      dsimp only at h
      cases v with
      | object members =>
          rw [ofJson] at h
          cases hcommand : (Json.object members).get? "cmd" with
          | some command =>
              rw [hcommand] at h
              exact .control hraw (fault_of_controlOf (Json.lookup_eq_some_iff.mp hcommand) h)
          | none =>
              have hlacks := Json.lookup_eq_none_iff.mp hcommand
              cases htext : (Json.object members).get? "msg" with
              | some text =>
                  have hthere : ¬ Lacks members "msg" := fun hnone => by
                    rw [Json.get?, Json.lookup_eq_none_iff.mpr hnone] at htext
                    cases htext
                  rw [hcommand, htext] at h
                  cases hchunk : chunkOf (.object members) with
                  | ok c =>
                      rw [hchunk] at h
                      cases h
                  | error r' =>
                      rw [hchunk] at h
                      obtain rfl := Except.error.inj h
                      exact .chunk hraw hlacks hthere (fault_of_chunkOf hchunk)
              | none =>
                  rw [hcommand, htext] at h
                  obtain rfl := Except.error.inj h
                  exact .neither hraw hlacks (Json.lookup_eq_none_iff.mp htext)
      | _ =>
          obtain rfl := Except.error.inj h
          exact .noObject fun members heq => by rw [hraw] at heq; cases heq

/-! ### Texts with a fault -/

theorem HasNumber.unique {name : String} {n m : UInt32} (hn : HasNumber members name n)
    (hm : HasNumber members name m) : n = m := by
  rw [← bind_uint32?_eq_some_iff] at hn hm
  exact Option.some.inj (hn.symm.trans hm)

theorem not_lacks_of_holds {name : String} {v : Json} (h : Holds members name v) :
    ¬ Lacks members name := by
  obtain ⟨before, behind, rfl, -⟩ := h
  exact fun hlacks => hlacks (name, v) (by simp) rfl

theorem holds_unique {name : String} {v w : Json} (hv : Holds members name v)
    (hw : Holds members name w) : v = w := by
  rw [← Json.lookup_eq_some_iff] at hv hw
  exact Option.some.inj (hv.symm.trans hw)

/-- A request for a plugin has no fault. -/
theorem Asks.no_fault {mimetype : String} (h : Asks members mimetype) :
    ¬ ControlFault members kind := by
  intro hfault
  cases hfault with
  | command hcommand hother => exact hother (holds_unique hcommand h.command)
  | noMimetype _ hlacks => exact not_lacks_of_holds h.mimetype hlacks
  | mimetype _ hmimetype hother => exact hother _ (holds_unique hmimetype h.mimetype)

/-- A chunk that is carried has no fault. -/
theorem Carries.no_fault {c : Chunk} (h : Carries members c) : ¬ ChunkFault members kind := by
  intro hfault
  cases hfault with
  | count hcount => exact hcount _ h.count
  | id hid => exact hid _ h.id
  | colony hcolony =>
      rcases h.colony with hhas | ⟨hlacks, -⟩
      · exact hcolony.2 _ hhas
      · exact hcolony.1 hlacks
  | text htext => exact htext _ h.fragment
  | noChunks hcount =>
      have hzero := h.count.unique hcount
      exact one_le_iff.mp h.count_pos hzero
  | noPlace hcount hseveral hlacks =>
      obtain rfl := h.count.unique hcount
      obtain ⟨⟨v, hv, -⟩, -⟩ := h.place.1 hseveral
      exact not_lacks_of_holds hv hlacks
  | place hcount hseveral hplace =>
      obtain rfl := h.count.unique hcount
      exact hplace.2 _ (h.place.1 hseveral).1
  | range hcount hseveral hplace hrange =>
      obtain rfl := h.count.unique hcount
      obtain ⟨hhas, hbetween⟩ := h.place.1 hseveral
      obtain rfl := hhas.unique hplace
      exact range_iff.mpr hbetween hrange

/-- **A text with a fault is not read as anything.** -/
theorem Fault.not_accepted {envelope : Envelope} (hfault : Fault raw kind) :
    parse raw ≠ .ok envelope := by
  intro hparse
  obtain ⟨members, hmembers, hread⟩ := parse_eq_ok_iff.mp hparse
  have hsame {others : List (String × Json)} (h : Json.parse raw = .ok (.object others)) :
      others = members := Json.object.inj (Except.ok.inj (h.symm.trans hmembers))
  cases hfault with
  | noObject hraw => exact hraw members hmembers
  | control hraw hfault =>
      obtain rfl := hsame hraw
      rcases hread with ⟨m, -, hasks⟩ | ⟨c, -, hcarries⟩
      · exact hasks.no_fault hfault
      · cases hfault with
        | command hcommand => exact not_lacks_of_holds hcommand hcarries.noCommand
        | noMimetype hcommand => exact not_lacks_of_holds hcommand hcarries.noCommand
        | mimetype hcommand => exact not_lacks_of_holds hcommand hcarries.noCommand
  | chunk hraw hcommand _ hfault =>
      obtain rfl := hsame hraw
      rcases hread with ⟨m, -, hasks⟩ | ⟨c, -, hcarries⟩
      · exact not_lacks_of_holds hasks.command hcommand
      · exact hcarries.no_fault hfault
  | neither hraw hcommand htext =>
      obtain rfl := hsame hraw
      rcases hread with ⟨m, -, hasks⟩ | ⟨c, -, hcarries⟩
      · exact not_lacks_of_holds hasks.command hcommand
      · exact not_lacks_of_holds hcarries.fragment htext

/-- **Texts are rejected for their faults.**  A text is rejected exactly where it has a fault, and
the rejection is of the kind that one of its faults calls for. -/
theorem rejected_for_fault (raw : String) :
    ((∃ r, parse raw = .error r) ↔ ∃ kind, Fault raw kind) ∧
      ∀ r, parse raw = .error r → Fault raw r.kind := by
  refine ⟨⟨?_, ?_⟩, fun r h => fault_of_parse h⟩
  · rintro ⟨r, h⟩
    exact ⟨r.kind, fault_of_parse h⟩
  · rintro ⟨kind, hfault⟩
    cases hparse : parse raw with
    | error r => exact ⟨r, rfl⟩
    | ok envelope => exact absurd hparse hfault.not_accepted

/-- A request whose mimetype is a number. -/
def numberedMimetype : String := "\x7b\"cmd\":\"create\",\"mimetype\":5\x7d"

/-- One of two chunks, whose place is a word. -/
def wordedPlace : String := "\x7b\"cmdId\":1,\"c\":2,\"n\":\"1\",\"msg\":\"a\"\x7d"

/-- One of two chunks, whose place has more than 32 bits. -/
def remotePlace : String := "\x7b\"cmdId\":1,\"c\":2,\"n\":4294967296,\"msg\":\"a\"\x7d"

/-- A member that is there with a value of another type is malformed: it does not count as missing,
and a place that is no number of 32 bits does not count as out of range. -/
theorem present_is_not_missing :
    (Json.parse numberedMimetype =
        .ok (.object [("cmd", .string "create"), ("mimetype", .number (.natural 5))]) ∧
      ∃ r, parse numberedMimetype = .error r ∧ r.kind = .malformed ∧
        r.kind ≠ .missingField "mimetype") ∧
    (Json.parse wordedPlace =
        .ok (.object [("cmdId", .number (.natural 1)), ("c", .number (.natural 2)),
          ("n", .string "1"), ("msg", .string "a")]) ∧
      ∃ r, parse wordedPlace = .error r ∧ r.kind = .malformed ∧ r.kind ≠ .missingSequenceId) ∧
    (Json.parse remotePlace =
        .ok (.object [("cmdId", .number (.natural 1)), ("c", .number (.natural 2)),
          ("n", .number (.natural 4294967296)), ("msg", .string "a")]) ∧
      ∃ r, parse remotePlace = .error r ∧ r.kind = .malformed ∧
        r.kind ≠ .sequenceOutOfRange) :=
  ⟨⟨rfl, _, rfl, rfl, by decide⟩, ⟨rfl, _, rfl, rfl, by decide⟩, ⟨rfl, _, rfl, rfl, by decide⟩⟩

end Envelope

end NativeMessaging
