import Mathlib.Data.List.Nodup
import NativeMessaging.Proofs.Basic
import NativeMessaging.Toml.Table

/-!
# Toml — the keys of a table

`Value.Distinct`: in no table of a value, however deep, a key is there twice.  Whatever keys and
headers do to tables keeps that.

* `Entries.update_cases`: what a change of one name does to the entries of a table.
* `Entries.Distinct.descend`: a change at the end of a path keeps keys apart where the change itself
  does.
* `Entries.Distinct.setKey`, `reserve`, `reopen`, `found`: so do the changes that keys and headers
  make, and so do the entries that a header finds.
-/

namespace NativeMessaging.Toml

/-- A value that holds no others. -/
def Value.IsScalar : Value → Prop
  | .array _   => False
  | .tables _  => False
  | .table _ _ => False
  | _          => True

/-- In no table of the value a key is there twice. -/
inductive Value.Distinct : Value → Prop where
  | scalar {v : Value} (h : v.IsScalar) : Distinct v
  | array {items : List Value} (h : ∀ v ∈ items, Distinct v) : Distinct (.array items)
  | tables {items : List Value} (h : ∀ v ∈ items, Distinct v) : Distinct (.tables items)
  | table {kind : TableKind} {entries : List (String × Value)}
      (nodup : (entries.map Prod.fst).Nodup) (h : ∀ entry ∈ entries, Distinct entry.2) :
      Distinct (.table kind entries)

/-- No key is there twice among the entries, and none in any table further down. -/
structure Entries.Distinct (entries : Entries) : Prop where
  nodup : (entries.map Prod.fst).Nodup
  values : ∀ entry ∈ entries, entry.2.Distinct

theorem Value.distinct_table_iff {kind : TableKind} {entries : Entries} :
    Value.Distinct (.table kind entries) ↔ entries.Distinct := by
  constructor
  · intro h
    cases h with
    | scalar h       => exact h.elim
    | table nodup h  => exact ⟨nodup, h⟩
  · intro h
    exact .table h.nodup h.values

theorem Value.Distinct.of_mem_tables {items : List Value} {v : Value}
    (h : Value.Distinct (.tables items)) (hv : v ∈ items) : v.Distinct := by
  cases h with
  | scalar h => exact h.elim
  | tables h => exact h v hv

namespace Entries

variable {entries entries' : Entries} {name : String} {v : Value} {path : List String}
  {kind : TableKind} {dotted : Bool}

namespace Distinct

theorem nil : Distinct [] := ⟨.nil, List.forall_mem_nil _⟩

theorem of_lookup (h : entries.Distinct) (hlookup : entries.lookup name = some v) : v.Distinct :=
  h.values _ (mem_of_lookup hlookup)

theorem erase (h : entries.Distinct) (name : String) : (erase name entries).Distinct :=
  have hsub : (Entries.erase name entries).Sublist entries := List.filter_sublist
  ⟨h.nodup.sublist (hsub.map _), fun entry hentry => h.values entry (hsub.subset hentry)⟩

end Distinct

/-! ### One name -/

/-- **A change of one name** replaces its value where it is, or sets it behind all others. -/
theorem update_cases {f : Option Value → Option Value} (h : update name f entries = some entries') :
    (∃ before old behind new, entries = before ++ (name, old) :: behind ∧
        f (some old) = some new ∧ entries' = before ++ (name, new) :: behind) ∨
      name ∉ entries.map Prod.fst ∧
        ∃ new, f none = some new ∧ entries' = entries ++ [(name, new)] := by
  induction entries generalizing entries' with
  | nil =>
      obtain ⟨new, hnew, heq⟩ := Option.bind_eq_some_iff.mp h
      exact .inr ⟨List.not_mem_nil, new, hnew, (Option.some.inj heq).symm⟩
  | cons entry entries ih =>
      obtain ⟨n, old⟩ := entry
      rw [update] at h
      split at h
      · next hname =>
        obtain ⟨new, hnew, heq⟩ := Option.bind_eq_some_iff.mp h
        obtain rfl := hname
        exact .inl ⟨[], old, entries, new, rfl, hnew, (Option.some.inj heq).symm⟩
      · next hname =>
        obtain ⟨rest, hrest, heq⟩ := Option.bind_eq_some_iff.mp h
        obtain rfl := Option.some.inj heq
        rcases ih hrest with ⟨before, old', behind, new, rfl, hnew, rfl⟩ | ⟨hnot, new, hnew, rfl⟩
        · exact .inl ⟨(n, old) :: before, old', behind, new, rfl, hnew, rfl⟩
        · refine .inr ⟨?_, new, hnew, rfl⟩
          rw [List.map_cons, List.mem_cons, not_or]
          exact ⟨fun heq => hname heq.symm, hnot⟩

theorem Distinct.update {f : Option Value → Option Value}
    (hf : ∀ old new, (∀ v ∈ old, v.Distinct) → f old = some new → new.Distinct)
    (h : entries.Distinct) (hupdate : update name f entries = some entries') :
    entries'.Distinct := by
  rcases update_cases hupdate with
    ⟨before, old, behind, new, rfl, hnew, rfl⟩ | ⟨hnot, new, hnew, rfl⟩
  · have hold : old.Distinct := h.values (name, old) (by simp)
    refine ⟨by simpa using h.nodup, fun entry hentry => ?_⟩
    rcases List.mem_append.mp hentry with hbefore | hbehind
    · exact h.values entry (List.mem_append_left _ hbefore)
    · rcases List.mem_cons.mp hbehind with rfl | hbehind
      · exact hf (some old) new (fun v hv => Option.some.inj hv ▸ hold) hnew
      · exact h.values entry (List.mem_append_right _ (List.mem_cons_of_mem _ hbehind))
  · refine ⟨?_, fun entry hentry => ?_⟩
    · rw [List.map_append, List.nodup_append]
      refine ⟨h.nodup, List.nodup_singleton _, fun n hn m hm heq => hnot ?_⟩
      obtain rfl := List.mem_singleton.mp hm
      exact heq ▸ hn
    · rcases List.mem_append.mp hentry with hentry | hnew'
      · exact h.values entry hentry
      · obtain rfl := List.mem_singleton.mp hnew'
        exact hf none new (fun v hv => by cases hv) hnew

theorem Distinct.insertNew (h : entries.Distinct) (hv : v.Distinct)
    (hinsert : insertNew name v entries = some entries') : entries'.Distinct := by
  refine h.update (fun old new _ hnew => ?_) hinsert
  cases old with
  | none   => exact Option.some.inj hnew ▸ hv
  | some _ => cases hnew

theorem Distinct.reserve (h : entries.Distinct) (hreserve : reserve name entries = some entries') :
    entries'.Distinct := by
  refine h.update (fun old new hold hnew => ?_) hreserve
  split at hnew
  · exact Option.some.inj hnew ▸ .tables (List.forall_mem_nil _)
  · exact Option.some.inj hnew ▸ hold _ rfl
  · cases hnew

/-! ### Paths -/

theorem mem_of_updateLast {f : Value → Option Value} {items items' : List Value}
    (h : updateLast f items = some items') (hv : v ∈ items') :
    v ∈ items ∨ ∃ old ∈ items, f old = some v := by
  induction items generalizing items' with
  | nil => cases h
  | cons first items ih =>
      cases items with
      | nil =>
          obtain ⟨new, hnew, heq⟩ := Option.bind_eq_some_iff.mp h
          obtain rfl := Option.some.inj heq
          obtain rfl := List.mem_singleton.mp hv
          exact .inr ⟨first, List.mem_cons_self .., hnew⟩
      | cons second items =>
          obtain ⟨rest, hrest, heq⟩ := Option.bind_eq_some_iff.mp h
          obtain rfl := Option.some.inj heq
          rcases List.mem_cons.mp hv with rfl | hv
          · exact .inl (List.mem_cons_self ..)
          · rcases ih hrest hv with hmem | ⟨old, hold, hnew⟩
            · exact .inl (List.mem_cons_of_mem _ hmem)
            · exact .inr ⟨old, List.mem_cons_of_mem _ hold, hnew⟩

variable {f : TableKind → Entries → Option Entries}

theorem distinct_enter {old : Option Value}
    (hf : ∀ kind es es', es.Distinct → f kind es = some es' → es'.Distinct)
    (hold : ∀ v ∈ old, v.Distinct) (h : enter dotted f old = some v) : v.Distinct := by
  rw [enter.eq_def] at h
  split at h
  · obtain ⟨es, hes, heq⟩ := Option.bind_eq_some_iff.mp h
    exact Option.some.inj heq ▸ Value.distinct_table_iff.mpr (hf _ _ _ .nil hes)
  · split at h
    · cases h
    · obtain ⟨es, hes, heq⟩ := Option.bind_eq_some_iff.mp h
      have hsub := Value.distinct_table_iff.mp (hold _ rfl)
      exact Option.some.inj heq ▸ Value.distinct_table_iff.mpr (hf _ _ _ hsub hes)
  · obtain ⟨items', hitems, heq⟩ := Option.bind_eq_some_iff.mp h
    obtain rfl := Option.some.inj heq
    refine .tables fun w hw => ?_
    rcases mem_of_updateLast hitems hw with hmem | ⟨old, hmem, hnew⟩
    · exact (hold _ rfl).of_mem_tables hmem
    · split at hnew
      · obtain ⟨es, hes, heq⟩ := Option.bind_eq_some_iff.mp hnew
        have hsub := Value.distinct_table_iff.mp ((hold _ rfl).of_mem_tables hmem)
        exact Option.some.inj heq ▸ Value.distinct_table_iff.mpr (hf _ _ _ hsub hes)
      · cases hnew
  · cases h

/-- **A change at the end of a path** keeps keys apart where it does so there. -/
theorem Distinct.descend (hf : ∀ kind es es', es.Distinct → f kind es = some es' → es'.Distinct)
    (h : entries.Distinct) (hdescend : descend dotted f path kind entries = some entries') :
    entries'.Distinct := by
  induction path generalizing kind entries entries' with
  | nil => exact hf _ _ _ h hdescend
  | cons name path ih =>
      exact h.update (fun old new hold hnew =>
        distinct_enter (fun _ _ _ hes hes' => ih hes hes') hold hnew) hdescend

theorem Distinct.setKey (h : entries.Distinct) (hv : v.Distinct)
    (hset : setKey path name v entries = some entries') : entries'.Distinct := by
  refine h.descend (fun kind es es' hes hes' => ?_) hset
  split at hes'
  · cases hes'
  · exact hes.insertNew hv hes'

/-- What every step keeps, a run of steps keeps. -/
theorem foldlM_keeps {σ β : Type} {P : σ → Prop} {f : σ → β → Option σ} {bs : List β} {s s' : σ}
    (hf : ∀ b ∈ bs, ∀ s s', P s → f s b = some s' → P s') (hs : P s)
    (h : bs.foldlM f s = some s') : P s' := by
  induction bs generalizing s with
  | nil => exact Option.some.inj h ▸ hs
  | cons b bs ih =>
      obtain ⟨s₁, hstep, hrest⟩ := Option.bind_eq_some_iff.mp h
      obtain ⟨hb, hbs⟩ := List.forall_mem_cons.mp hf
      exact ih hbs (hb s s₁ hs hstep) hrest

theorem distinct_setKeys {keys : List (List String × Value)}
    (hkeys : ∀ assignment ∈ keys, assignment.2.Distinct) (h : setKeys keys = some entries') :
    entries'.Distinct := by
  refine foldlM_keeps (fun assignment hmem es es' hes hes' => ?_) .nil h
  obtain ⟨name, -, hset⟩ := Option.bind_eq_some_iff.mp hes'
  exact hes.setKey (hkeys assignment hmem) hset

theorem Distinct.reopen {taken : Entries} (h : entries.Distinct)
    (hreopen : reopen name entries = some (entries', taken)) :
    entries'.Distinct ∧ taken.Distinct := by
  rw [Entries.reopen] at hreopen
  split at hreopen
  · obtain ⟨rfl, rfl⟩ := Prod.mk.inj (Option.some.inj hreopen)
    exact ⟨h, .nil⟩
  · next es hfound =>
    obtain ⟨rfl, rfl⟩ := Prod.mk.inj (Option.some.inj hreopen)
    exact ⟨h.erase name, Value.distinct_table_iff.mp (h.of_lookup hfound)⟩
  · cases hreopen

theorem Distinct.found {taken : Entries} (h : entries.Distinct)
    (hfound : found path name entries = some taken) : taken.Distinct := by
  induction path generalizing entries with
  | nil =>
      obtain ⟨⟨es, es'⟩, hreopen, heq⟩ := Option.bind_eq_some_iff.mp hfound
      exact Option.some.inj heq ▸ (h.reopen hreopen).2
  | cons p path ih =>
      rw [Entries.found] at hfound
      split at hfound
      · exact Option.some.inj hfound ▸ .nil
      · next es hlookup => exact ih (Value.distinct_table_iff.mp (h.of_lookup hlookup)) hfound
      · next items hlookup =>
        split at hfound
        · next es hlast =>
          have hmem := List.mem_of_getLast? hlast
          exact ih (Value.distinct_table_iff.mp ((h.of_lookup hlookup).of_mem_tables hmem)) hfound
        · cases hfound
      · cases hfound

end Entries

end NativeMessaging.Toml
