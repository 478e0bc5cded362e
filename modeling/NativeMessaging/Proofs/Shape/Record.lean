import NativeMessaging.Proofs.Basic
import NativeMessaging.Shape.Record

/-!
# Shape — Record: fields by name

Where no name is there twice, members are a function from names to values: neither their order nor
members of other names matter.

* `Field.ofMembers_eq_ok_iff`: a field is what its member spells, or what it is where it is absent.
* `checkMembers_eq_ok`: nothing is wrong with members where each field that is there is read.
-/

namespace NativeMessaging.Shape

variable {ν α : Type}

namespace Field

/-- **A field** is what its member spells, or what it is where it is absent. -/
theorem ofMembers_eq_ok_iff {field : Field ν α} {members : List (String × ν)} {a : α} :
    field.ofMembers members = .ok a ↔
      (∃ v, members.lookup field.name = some v ∧ field.read v = .ok a) ∨
        members.lookup field.name = none ∧ field.absent = some a := by
  rw [ofMembers]
  constructor
  · intro h
    split at h
    · next v hlookup => exact .inl ⟨v, hlookup, h⟩
    · next a' hlookup habsent =>
      exact .inr ⟨hlookup, habsent.trans (congrArg some (Except.ok.inj h))⟩
    · cases h
  · rintro (⟨v, hlookup, hread⟩ | ⟨hlookup, habsent⟩)
    · simp only [hlookup, hread]
    · simp only [hlookup, habsent]

/-- A field that has a value has one that is read, where it is there. -/
theorem shape_read_of_ofMembers {field : Field ν α} {members : List (String × ν)} {a : α}
    (h : field.ofMembers members = .ok a) (v : ν)
    (hlookup : members.lookup field.shape.name = some v) : field.shape.read v = .ok () := by
  rcases ofMembers_eq_ok_iff.mp h with ⟨v', hlookup', hread⟩ | ⟨hlookup', -⟩
  · obtain rfl := Option.some.inj (hlookup.symm.trans hlookup')
    exact congrArg (Except.map fun _ => ()) hread
  · cases hlookup.symm.trans hlookup'

end Field

/-! ### All fields -/

variable {fields : List (Field ν Unit)} {members : List (String × ν)} {seen : List String}

/-- Nothing is wrong with members whose names were not seen before, where each is read by the field
of its name. -/
theorem checkMembers_of_forall_mem (hmembers : (members.map Prod.fst).Nodup)
    (hseen : ∀ n ∈ seen, n ∉ members.map Prod.fst)
    (hread : ∀ m ∈ members, ∀ field ∈ fields, field.name = m.1 → field.read m.2 = .ok ()) :
    checkMembers fields seen members = .ok () := by
  induction members generalizing seen with
  | nil => rfl
  | cons m members ih =>
      obtain ⟨n, v⟩ := m
      obtain ⟨hfresh, hmembers⟩ := List.nodup_cons.mp hmembers
      obtain ⟨hv, hread⟩ := List.forall_mem_cons.mp hread
      have hunseen : n ∉ seen := fun h => hseen n h (List.mem_cons_self ..)
      have hrest : ∀ s ∈ seen, s ∉ members.map Prod.fst :=
        fun s hs hmem => hseen s hs (List.mem_cons_of_mem _ hmem)
      rw [checkMembers]
      split
      · exact ih hmembers hrest hread
      · next field hfind =>
        have hname : field.name = n := by simpa using List.find?_some hfind
        rw [if_neg hunseen, hv field (List.mem_of_find?_eq_some hfind) hname]
        exact ih hmembers (List.forall_mem_cons.mpr ⟨hfresh, hrest⟩) hread

/-- **Nothing is wrong with members** where each field that is there is read. -/
theorem checkMembers_eq_ok (hmembers : (members.map Prod.fst).Nodup)
    (hread : ∀ field ∈ fields, ∀ v, members.lookup field.name = some v → field.read v = .ok ()) :
    checkMembers fields [] members = .ok () :=
  checkMembers_of_forall_mem hmembers (List.forall_mem_nil _) fun m hm field hfield hname =>
    hread field hfield m.2 (hname ▸ lookup_of_mem hmembers hm)

end NativeMessaging.Shape
