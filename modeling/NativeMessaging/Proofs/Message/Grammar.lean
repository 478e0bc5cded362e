import NativeMessaging.Proofs.Basic
import NativeMessaging.Proofs.Json.Value
import NativeMessaging.Proofs.Message.Reassembly

/-!
# Message — the grammar of envelopes

Which objects ask for a plugin (`Asks`) and which carry a chunk (`Carries`), said of the members of
the object alone; of members of one name the last one counts.

* `chunkOf_eq_ok_iff`, `controlOf_eq_ok_iff`: what an object is read as.
* `Reassembler.rejection_of_range`: why a table rejects a chunk whose place is in range.
* `parse_accepts_grammar`: a text is read exactly where it is JSON for such an object.
-/

namespace NativeMessaging

open Json (Holds Lacks IsNatural)

namespace Envelope

variable {members : List (String × Json)}

/-- The member of that name is a number of 32 bits. -/
def HasNumber (members : List (String × Json)) (name : String) (n : UInt32) : Prop :=
  ∃ v, Holds members name v ∧ IsNatural v n.toNat

/-- The object asks for the plugin of a mimetype, whatever else it holds. -/
structure Asks (members : List (String × Json)) (mimetype : String) : Prop where
  command : Holds members "cmd" (.string "create")
  mimetype : Holds members "mimetype" (.string mimetype)

/-- The place of a chunk: one of `count` where the message has several chunks, and the first
whatever `n` says where the chunk is alone. -/
def HasPlace (members : List (String × Json)) (count place : UInt32) : Prop :=
  (1 < count → HasNumber members "n" place ∧ 1 ≤ place ∧ place ≤ count) ∧ (count = 1 → place = 1)

/-- The object carries a chunk: it has no command, a text, a count of at least one and an id, a
colony or none of it, and the place of the chunk; only the word for a response makes it part of a
response. -/
structure Carries (members : List (String × Json)) (c : Chunk) : Prop where
  noCommand : Lacks members "cmd"
  fragment : Holds members "msg" (.string c.fragment)
  count : HasNumber members "c" c.count
  count_pos : 1 ≤ c.count
  id : HasNumber members "cmdId" c.id.val
  colony : HasNumber members "colonyId" c.colony.val ∨
    Lacks members "colonyId" ∧ c.colony = .topLevel
  place : HasPlace members c.count c.sequence
  direction : c.direction = .response ↔ Holds members "type" (.string "resp")

/-! ### Fields -/

theorem bind_uint32?_eq_some_iff {name : String} {n : UInt32} :
    ((Json.object members).get? name).bind Json.uint32? = some n ↔ HasNumber members name n := by
  simp only [HasNumber, Option.bind_eq_some_iff, Json.get?, Json.lookup_eq_some_iff,
    Json.uint32?_eq_some_iff]

theorem bind_string?_eq_some_iff {name s : String} :
    ((Json.object members).get? name).bind Json.string? = some s ↔
      Holds members name (.string s) := by
  simp only [Option.bind_eq_some_iff, Json.get?, Json.lookup_eq_some_iff,
    Json.string?_eq_some_iff, exists_eq_right]

theorem number?_eq_ok_iff {name : String} {found : Option UInt32} :
    number? (.object members) name = .ok found ↔
      (∃ n, found = some n ∧ HasNumber members name n) ∨
        found = none ∧ Lacks members name := by
  simp only [← bind_uint32?_eq_some_iff, ← Json.lookup_eq_none_iff, number?, Json.get?]
  cases Json.lookup name members with
  | none => simp [eq_comm]
  | some v =>
      cases hv : v.uint32? with
      | none => simp [hv]
      | some n => simp [hv, eq_comm]

theorem number_eq_ok_iff {name : String} {n : UInt32} :
    number (.object members) name = .ok n ↔ HasNumber members name n := by
  rw [number, bind_eq_ok_iff]
  constructor
  · rintro ⟨_ | m, hfound, hread⟩
    · cases hread
    · obtain rfl := Except.ok.inj hread
      obtain ⟨m, hm, hhas⟩ := (number?_eq_ok_iff.mp hfound).resolve_right nofun
      exact Option.some.inj hm ▸ hhas
  · intro hhas
    exact ⟨some n, number?_eq_ok_iff.mpr (.inl ⟨n, rfl, hhas⟩), rfl⟩

theorem one_le_iff {n : UInt32} : 1 ≤ n ↔ n ≠ 0 := by
  rw [UInt32.le_iff_toNat_le, UInt32.toNat_one, Nat.one_le_iff_ne_zero, Ne, Ne,
    ← UInt32.toNat_inj, UInt32.toNat_zero]

theorem range_iff {place count : UInt32} :
    ¬ (place = 0 ∨ count < place) ↔ 1 ≤ place ∧ place ≤ count := by
  rw [not_or, UInt32.not_lt, one_le_iff]

theorem sequence_eq_ok_iff {count place : UInt32} (hcount : 1 ≤ count) :
    sequence (.object members) count = .ok place ↔ HasPlace members count place := by
  rw [sequence, HasPlace]
  by_cases hseveral : 1 < count
  · have hone : count ≠ 1 := (UInt32.ne_of_lt hseveral).symm
    rw [if_pos hseveral, bind_eq_ok_iff]
    constructor
    · rintro ⟨_ | n, hfound, hread⟩
      · cases hread
      · dsimp only at hread
        split at hread
        · cases hread
        · next hrange =>
          obtain rfl := Except.ok.inj hread
          obtain ⟨m, hm, hhas⟩ := (number?_eq_ok_iff.mp hfound).resolve_right nofun
          obtain rfl := Option.some.inj hm
          exact ⟨fun _ => ⟨hhas, range_iff.mp hrange⟩, fun h => absurd h hone⟩
    · rintro ⟨hplace, -⟩
      obtain ⟨hhas, hrange⟩ := hplace hseveral
      exact ⟨some place, number?_eq_ok_iff.mpr (.inl ⟨place, rfl, hhas⟩),
        if_neg (range_iff.mpr hrange)⟩
  · have hone : count = 1 := UInt32.le_antisymm (UInt32.not_lt.mp hseveral) hcount
    rw [if_neg hseveral]
    constructor
    · intro h
      exact ⟨fun h' => absurd h' hseveral, fun _ => (Except.ok.inj h).symm⟩
    · rintro ⟨-, hplace⟩
      rw [hplace hone]

theorem direction_eq_response_iff :
    direction (.object members) = .response ↔ Holds members "type" (.string "resp") := by
  rw [← bind_string?_eq_some_iff, direction]
  cases ((Json.object members).get? "type").bind Json.string? with
  | none => simp
  | some s => simp [Direction.word]

/-! ### Objects -/

/-- **An object without a command is read as the chunk that it carries.** -/
theorem chunkOf_eq_ok_iff (hcommand : Lacks members "cmd") {c : Chunk} :
    chunkOf (.object members) = .ok c ↔ Carries members c := by
  constructor
  · intro h
    obtain ⟨count, hcount, h⟩ := bind_eq_ok_iff.mp h
    obtain ⟨id, hid, h⟩ := bind_eq_ok_iff.mp h
    obtain ⟨colony, hcolony, h⟩ := bind_eq_ok_iff.mp h
    split at h
    · cases h
    next hzero =>
    obtain ⟨place, hplace, h⟩ := bind_eq_ok_iff.mp h
    split at h
    · cases h
    next fragment hfragment =>
    obtain rfl := Except.ok.inj h
    have hpos : 1 ≤ count := one_le_iff.mpr hzero
    exact {
      noCommand := hcommand
      fragment := bind_string?_eq_some_iff.mp hfragment
      count := number_eq_ok_iff.mp hcount
      count_pos := hpos
      id := number_eq_ok_iff.mp hid
      colony := by
        rcases number?_eq_ok_iff.mp hcolony with ⟨n, rfl, hhas⟩ | ⟨rfl, hlacks⟩
        · exact .inl hhas
        · exact .inr ⟨hlacks, rfl⟩
      place := (sequence_eq_ok_iff hpos).mp hplace
      direction := direction_eq_response_iff }
  · intro h
    obtain ⟨id, colony, d, count, place, fragment⟩ := c
    have hcount := number_eq_ok_iff.mpr h.count
    have hid := number_eq_ok_iff.mpr h.id
    have hzero := one_le_iff.mp h.count_pos
    have hplace := (sequence_eq_ok_iff h.count_pos).mpr h.place
    have hfragment := bind_string?_eq_some_iff.mpr h.fragment
    have hdirection : direction (.object members) = d := by
      have hresponse := direction_eq_response_iff.trans h.direction.symm
      cases hread : direction (.object members) <;> cases d <;> simp_all
    obtain ⟨found, hfound, hcolony⟩ : ∃ found, number? (.object members) "colonyId" = .ok found ∧
        (found.map ColonyId.mk).getD .topLevel = colony := by
      rcases h.colony with hhas | ⟨hlacks, htop⟩
      · exact ⟨some colony.val, number?_eq_ok_iff.mpr (.inl ⟨_, rfl, hhas⟩), rfl⟩
      · exact ⟨none, number?_eq_ok_iff.mpr (.inr ⟨rfl, hlacks⟩), htop.symm⟩
    dsimp only at hcount hid hzero hplace hfragment
    simp only [chunkOf, hcount, hid, hfound, hplace, hfragment, hdirection, hcolony, if_neg hzero,
      bind, Except.bind]

/-- **An object with a command is read as the request for a plugin that it is.** -/
theorem controlOf_eq_ok_iff {command : Json} {envelope : Envelope} :
    controlOf (.object members) command = .ok envelope ↔
      command = .string "create" ∧
        ∃ m, Holds members "mimetype" (.string m) ∧ envelope = .create m := by
  rw [controlOf]
  split
  · next hcreate =>
    rw [Json.string?_eq_some_iff] at hcreate
    simp only [hcreate, true_and, ← Json.lookup_eq_some_iff, Json.get?]
    cases Json.lookup "mimetype" members with
    | none => simp
    | some v => cases v <;> simp [eq_comm]
  · next s hother hcommand =>
    rw [Json.string?_eq_some_iff] at hcommand
    subst hcommand
    have hne : s ≠ "create" := hother
    simp [hne]
  · next hnone =>
    refine ⟨fun h => (by cases h), ?_⟩
    rintro ⟨rfl, -⟩
    cases hnone

/-- **An object is read as what it asks for or carries**, and as nothing else. -/
theorem ofJson_eq_ok_iff {envelope : Envelope} :
    ofJson (.object members) = .ok envelope ↔
      (∃ m, envelope = .create m ∧ Asks members m) ∨
        ∃ c, envelope = .chunk c ∧ Carries members c := by
  rw [ofJson]
  cases hcommand : Json.lookup "cmd" members with
  | some command =>
      have hholds := Json.lookup_eq_some_iff.mp hcommand
      have hlacks : ¬ Lacks members "cmd" := fun h => by
        rw [Json.lookup_eq_none_iff.mpr h] at hcommand
        cases hcommand
      simp only [Json.get?, hcommand, controlOf_eq_ok_iff]
      constructor
      · rintro ⟨rfl, m, hm, rfl⟩
        exact .inl ⟨m, rfl, hholds, hm⟩
      · rintro (⟨m, rfl, hasks⟩ | ⟨c, -, hcarries⟩)
        · have hcreate := Json.lookup_eq_some_iff.mpr hasks.command
          rw [hcommand] at hcreate
          exact ⟨Option.some.inj hcreate, m, hasks.mimetype, rfl⟩
        · exact absurd hcarries.noCommand hlacks
  | none =>
      have hlacks := Json.lookup_eq_none_iff.mp hcommand
      have hasks : ∀ m, ¬ Asks members m := fun m h => by
        rw [Json.lookup_eq_some_iff.mpr h.command] at hcommand
        cases hcommand
      cases hmsg : Json.lookup "msg" members with
      | none =>
          simp only [Json.get?, hcommand, hmsg]
          refine ⟨fun h => (by cases h), ?_⟩
          rintro (⟨m, -, h⟩ | ⟨c, -, h⟩)
          · exact absurd h (hasks m)
          · rw [Json.lookup_eq_some_iff.mpr h.fragment] at hmsg
            cases hmsg
      | some v =>
          simp only [Json.get?, hcommand, hmsg]
          constructor
          · intro h
            cases hchunk : chunkOf (.object members) with
            | error r =>
                rw [hchunk] at h
                cases h
            | ok c =>
                rw [hchunk] at h
                obtain rfl := Except.ok.inj h
                exact .inr ⟨c, rfl, (chunkOf_eq_ok_iff hlacks).mp hchunk⟩
          · rintro (⟨m, -, h⟩ | ⟨c, rfl, h⟩)
            · exact absurd h (hasks m)
            · rw [(chunkOf_eq_ok_iff hlacks).mpr h]
              rfl

/-- **A text is read as what the object that it spells asks for or carries.** -/
theorem parse_eq_ok_iff {raw : String} {envelope : Envelope} :
    parse raw = .ok envelope ↔
      ∃ members, Json.parse raw = .ok (.object members) ∧
        ((∃ m, envelope = .create m ∧ Asks members m) ∨
          ∃ c, envelope = .chunk c ∧ Carries members c) := by
  simp only [← ofJson_eq_ok_iff]
  rw [parse]
  cases hraw : Json.parse raw with
  | error e => simp
  | ok v =>
      constructor
      · intro h
        cases v with
        | object members => exact ⟨members, rfl, h⟩
        | _ => cases h
      · rintro ⟨members, hmembers, h⟩
        obtain rfl := Except.ok.inj hmembers
        exact h

/-- The place of a chunk that is read is one of its message's places. -/
theorem Carries.range {c : Chunk} (h : Carries members c) :
    1 ≤ c.sequence ∧ c.sequence ≤ c.count := by
  obtain ⟨hseveral, hone⟩ := h.place
  by_cases hcount : 1 < c.count
  · exact (hseveral hcount).2
  · have hcount : c.count = 1 := UInt32.le_antisymm (UInt32.not_lt.mp hcount) h.count_pos
    rw [hone hcount, hcount]
    exact ⟨UInt32.le_refl 1, UInt32.le_refl 1⟩

end Envelope

/-- **A chunk whose place is in range is rejected only for its count**, where the table holds
something of its message that declares another one. -/
theorem Reassembler.rejection_of_range {table : Reassembler} {c : Chunk} {r : Rejection}
    (hrange : 1 ≤ c.sequence ∧ c.sequence ≤ c.count) (h : (table.accept c).1 = .error r) :
    ∃ p, table.get? c.id = some p ∧ p.declared ≠ c.count ∧
      r = .sequenceSizeMismatch c.id p.declared c.count := by
  rw [accept, if_neg (Envelope.range_iff.mpr hrange)] at h
  dsimp only at h
  split at h
  · next hcount =>
    obtain rfl := Except.error.inj h
    cases hget : table.get? c.id with
    | none =>
        rw [hget] at hcount
        exact absurd rfl hcount
    | some p =>
        rw [hget] at hcount
        exact ⟨p, rfl, hcount, rfl⟩
  · split at h <;> cases h

/-- **The parser accepts exactly its grammar.**  A text is read as a request for a plugin, or as a
chunk, exactly where it is JSON for an object that asks for that plugin or carries that chunk, and
it is rejected everywhere else.  So the place of a chunk that is read is in range, and a table can
reject it only because it declares another count than what the table holds of its message. -/
theorem Envelope.parse_accepts_grammar (raw : String) :
    (∀ m, parse raw = .ok (.create m) ↔
      ∃ members, Json.parse raw = .ok (.object members) ∧ Asks members m) ∧
    (∀ c, parse raw = .ok (.chunk c) ↔
      ∃ members, Json.parse raw = .ok (.object members) ∧ Carries members c) ∧
    ((∃ r, parse raw = .error r) ↔
      ¬ ∃ members, Json.parse raw = .ok (.object members) ∧
        ((∃ m, Asks members m) ∨ ∃ c, Carries members c)) ∧
    ∀ c, parse raw = .ok (.chunk c) →
      1 ≤ c.sequence ∧ c.sequence ≤ c.count ∧
        ∀ (table : Reassembler) (r : Rejection), (table.accept c).1 = .error r →
          ∃ p, table.get? c.id = some p ∧ p.declared ≠ c.count ∧
            r = .sequenceSizeMismatch c.id p.declared c.count := by
  have hcreate : ∀ m, parse raw = .ok (.create m) ↔
      ∃ members, Json.parse raw = .ok (.object members) ∧ Asks members m := by
    intro m
    simp [parse_eq_ok_iff]
  have hchunk : ∀ c, parse raw = .ok (.chunk c) ↔
      ∃ members, Json.parse raw = .ok (.object members) ∧ Carries members c := by
    intro c
    simp [parse_eq_ok_iff]
  refine ⟨hcreate, hchunk, ?_, fun c hc => ?_⟩
  · cases hparse : parse raw with
    | error r =>
        refine ⟨fun _ => ?_, fun _ => ⟨r, rfl⟩⟩
        rintro ⟨members, hmembers, ⟨m, hasks⟩ | ⟨c, hcarries⟩⟩
        · rw [(hcreate m).mpr ⟨members, hmembers, hasks⟩] at hparse
          cases hparse
        · rw [(hchunk c).mpr ⟨members, hmembers, hcarries⟩] at hparse
          cases hparse
    | ok envelope =>
        refine ⟨fun h => h.elim fun _ h => (by cases h), fun h => absurd ?_ h⟩
        obtain ⟨members, hmembers, ⟨m, -, hasks⟩ | ⟨c, -, hcarries⟩⟩ := parse_eq_ok_iff.mp hparse
        · exact ⟨members, hmembers, .inl ⟨m, hasks⟩⟩
        · exact ⟨members, hmembers, .inr ⟨c, hcarries⟩⟩
  · obtain ⟨members, -, hcarries⟩ := (hchunk c).mp hc
    obtain ⟨hpos, hle⟩ := hcarries.range
    exact ⟨hpos, hle, fun table r h => Reassembler.rejection_of_range ⟨hpos, hle⟩ h⟩

/-- A chunk with numbers that are written as fractions, and with a count that counts and one that
does not. -/
def fractional : String :=
  "\x7b\"c\":3,\"n\":2.0,\"msg\":\"a\",\"cmdId\":7e0,\"type\":\"resp\",\"c\":20e-1\x7d"

/-- It is read, and its object carries what was read. -/
theorem Envelope.parse_accepts_grammar_fractional :
    let c : Chunk := ⟨⟨7⟩, .topLevel, .response, 2, 2, "a"⟩
    parse fractional = .ok (.chunk c) ∧
      (∃ members, Json.parse fractional = .ok (.object members) ∧ Carries members c) ∧
      1 ≤ c.sequence ∧ c.sequence ≤ c.count ∧
        ∀ (table : Reassembler) (r : Rejection), (table.accept c).1 = .error r →
          ∃ p, table.get? c.id = some p ∧ p.declared ≠ c.count ∧
            r = .sequenceSizeMismatch c.id p.declared c.count := by
  intro c
  have hparse : parse fractional = .ok (.chunk c) := by decide +kernel
  obtain ⟨-, hchunk, -, hplaced⟩ := parse_accepts_grammar fractional
  exact ⟨hparse, (hchunk c).mp hparse, hplaced c hparse⟩

end NativeMessaging
