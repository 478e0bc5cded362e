import NativeMessaging.Proofs.Plugin.Registry
import NativeMessaging.Proofs.Shape.Record
import NativeMessaging.Toml.Shape

/-!
# Toml — Shape: the entries of a table

A table is read entry by entry, so what is read for a name is what the value of that name reads as.

* `Read.map_table_eq_ok_iff`: every value is read, and the names stay.
* `Read.lookup_map`: what is read for a name.
* `Read.ofList_map`: tables in which every name reads as the same are registered as the same.
-/

namespace NativeMessaging.Toml.Read

open Plugin (Registry)
open Shape (Mismatch)

variable {α : Type} {value : Value → Except Mismatch α} {kind kind' : TableKind}
  {entries entries' : List (String × Value)} {read : List (String × α)}

/-- **A table is read** where every value of it is, and the names stay. -/
theorem map_table_eq_ok_iff :
    map value (.table kind entries) = .ok read ↔
      List.Forall₂ (fun entry r => r.1 = entry.1 ∧ value entry.2 = .ok r.2) entries read := by
  refine mapM_eq_ok_iff.trans ?_
  have hentry (entry : String × Value) (r : String × α) :
      (value entry.2 >>= fun a => Except.ok (entry.1, a)) = .ok r ↔
        r.1 = entry.1 ∧ value entry.2 = .ok r.2 := by
    rw [bind_eq_ok_iff]
    constructor
    · rintro ⟨a, ha, heq⟩
      obtain rfl := Except.ok.inj heq
      exact ⟨rfl, ha⟩
    · rintro ⟨hname, ha⟩
      exact ⟨r.2, ha, congrArg Except.ok (Prod.ext hname.symm rfl)⟩
  constructor
  · exact fun h => h.imp fun entry r => (hentry entry r).mp
  · exact fun h => h.imp fun entry r => (hentry entry r).mpr

theorem names_map (h : map value (.table kind entries) = .ok read) :
    read.map Prod.fst = entries.map Prod.fst := by
  have hrel := map_table_eq_ok_iff.mp h
  induction hrel with
  | nil => rfl
  | cons hr hrel ih => rw [List.map_cons, List.map_cons, hr.1, ih (map_table_eq_ok_iff.mpr hrel)]

/-- **What is read for a name** is what its value reads as. -/
theorem lookup_map (h : map value (.table kind entries) = .ok read) (name : String) :
    (entries.lookup name).map value = (read.lookup name).map .ok := by
  have hrel := map_table_eq_ok_iff.mp h
  clear h
  induction hrel with
  | nil => rfl
  | @cons entry r _ _ hr _ ih =>
      obtain ⟨n, v⟩ := entry
      obtain ⟨n', a⟩ := r
      obtain ⟨rfl, ha⟩ := hr
      rw [lookup_cons_ite, lookup_cons_ite]
      split
      · exact congrArg some ha
      · exact ih

/-- A table is read where each value is. -/
theorem exists_map (h : ∀ entry ∈ entries, ∃ a, value entry.2 = .ok a) :
    ∃ read, map value (.table kind entries) = .ok read := by
  simp only [map_table_eq_ok_iff]
  induction entries with
  | nil => exact ⟨[], .nil⟩
  | cons entry entries ih =>
      obtain ⟨⟨a, ha⟩, h⟩ := List.forall_mem_cons.mp h
      obtain ⟨read, hread⟩ := ih h
      exact ⟨(entry.1, a) :: read, .cons ⟨rfl, ha⟩ hread⟩

/-- **Tables in which every name reads as the same** are registered as the same. -/
theorem ofList_map (h : (entries.map Prod.fst).Nodup) (h' : (entries'.map Prod.fst).Nodup)
    (hsame : ∀ name, (entries'.lookup name).map value = (entries.lookup name).map value)
    (hread : map value (.table kind entries) = .ok read) :
    ∃ read', map value (.table kind' entries') = .ok read' ∧
      Registry.ofList read' = Registry.ofList read := by
  have heach : ∀ entry ∈ entries', ∃ a, value entry.2 = .ok a := by
    intro entry hentry
    have heq := (hsame entry.1).trans (lookup_map hread entry.1)
    rw [lookup_of_mem h' hentry] at heq
    obtain ⟨a, -, ha⟩ := Option.map_eq_some_iff.mp heq.symm
    exact ⟨a, ha.symm⟩
  obtain ⟨read', hread'⟩ : ∃ read', map value (.table kind' entries') = .ok read' :=
    exists_map heach
  refine ⟨read', hread', Registry.ofList_eq_of_lookup ?_ ?_ fun name => ?_⟩
  · exact names_map hread' ▸ h'
  · exact names_map hread ▸ h
  · have hok : Function.Injective (Option.map (Except.ok : α → Except Mismatch α)) :=
      Option.map_injective fun _ _ => Except.ok.inj
    exact hok ((lookup_map hread' name).symm.trans ((hsame name).trans (lookup_map hread name)))

end NativeMessaging.Toml.Read
