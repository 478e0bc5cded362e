import Mathlib.Data.String.Basic
import NativeMessaging.Plugin.Registry
import NativeMessaging.Proofs.Basic

/-!
# Plugin — Registry: what is registered

A registry is known by what it has for each mimetype: its entries stand in ascending order
(`Ascending`), so no two registries have the same entries in different orders.

* `lookup_insertEntry`: registering changes what one mimetype has, and nothing else.
* `lookup_ofList`: of the entries of a list, the last one of a mimetype counts.
* `Ascending.eq_of_lookup`: entries in order are the same where every mimetype has the same.
* `ofList_eq_of_lookup`: so are the registries of two lists.
-/

namespace NativeMessaging.Plugin.Registry

variable {α : Type} {entries entries' : List (String × α)} {mimetype : String} {a : α}

/-! ### Order -/

/-- Every entry comes before those with greater mimetypes. -/
def Ascending (entries : List (String × α)) : Prop :=
  entries.Pairwise fun entry later => entry.1 < later.1

theorem mem_of_mem_insertEntry {entry : String × α}
    (h : entry ∈ insertEntry mimetype a entries) : entry = (mimetype, a) ∨ entry ∈ entries := by
  induction entries with
  | nil => exact .inl (List.mem_singleton.mp h)
  | cons first entries ih =>
      obtain ⟨m, b⟩ := first
      rw [insertEntry] at h
      split at h
      · exact List.mem_cons.mp h
      · split at h
        · exact (List.mem_cons.mp h).imp_right (List.mem_cons_of_mem _)
        · rcases List.mem_cons.mp h with rfl | h
          · exact .inr (List.mem_cons_self ..)
          · exact (ih h).imp_right (List.mem_cons_of_mem _)

theorem Ascending.insertEntry (h : Ascending entries) (mimetype : String) (a : α) :
    Ascending (insertEntry mimetype a entries) := by
  induction entries with
  | nil => exact List.pairwise_singleton ..
  | cons first entries ih =>
      obtain ⟨m, b⟩ := first
      obtain ⟨hfirst, hentries⟩ := List.pairwise_cons.mp h
      rw [Registry.insertEntry]
      split
      · next hlt =>
        refine List.pairwise_cons.mpr ⟨fun later hlater => ?_, h⟩
        rcases List.mem_cons.mp hlater with rfl | hlater
        · exact hlt
        · exact String.lt_trans hlt (hfirst later hlater)
      · next hle =>
        split
        · next heq =>
          exact List.pairwise_cons.mpr ⟨fun later hlater => heq ▸ hfirst later hlater, hentries⟩
        · next hne =>
          refine List.pairwise_cons.mpr ⟨fun later hlater => ?_, ih hentries⟩
          rcases mem_of_mem_insertEntry hlater with rfl | hlater
          · exact lt_of_le_of_ne (not_lt.mp hle) (Ne.symm hne)
          · exact hfirst later hlater

/-! ### What a mimetype has -/

/-- **Registering** changes what one mimetype has, and nothing else. -/
theorem lookup_insertEntry (mimetype : String) (a : α) (entries : List (String × α))
    (other : String) :
    (insertEntry mimetype a entries).lookup other =
      if other = mimetype then some a else entries.lookup other := by
  induction entries with
  | nil => exact lookup_cons_ite mimetype a [] other
  | cons first entries ih =>
      obtain ⟨m, b⟩ := first
      rw [insertEntry]
      split
      · exact lookup_cons_ite ..
      · split
        · next heq =>
          rw [lookup_cons_ite, lookup_cons_ite, heq]
          by_cases h : other = m
          · rw [if_pos h, if_pos h]
          · rw [if_neg h, if_neg h, if_neg h]
        · next hne =>
          rw [lookup_cons_ite, lookup_cons_ite, ih]
          by_cases h : other = m
          · rw [if_pos h, if_pos h, if_neg fun heq => hne (heq.symm.trans h)]
          · rw [if_neg h, if_neg h]

/-- **Entries in order** are the same where every mimetype has the same. -/
theorem Ascending.eq_of_lookup (h : Ascending entries) (h' : Ascending entries')
    (hlookup : ∀ m, entries.lookup m = entries'.lookup m) : entries = entries' := by
  have hkeys {es : List (String × α)} (hes : Ascending es) : (es.map Prod.fst).Nodup :=
    List.pairwise_map.mpr (hes.imp String.ne_of_lt)
  have hmem {es es' : List (String × α)} (hes : Ascending es)
      (heq : ∀ m, es.lookup m = es'.lookup m) : ∀ entry ∈ es, entry ∈ es' :=
    fun entry hentry => mem_of_lookup ((heq entry.1).symm.trans (lookup_of_mem (hkeys hes) hentry))
  have hperm : entries.Perm entries' :=
    (List.perm_ext_iff_of_nodup (hkeys h).of_map (hkeys h').of_map).mpr fun entry =>
      ⟨hmem h hlookup entry, hmem h' (fun m => (hlookup m).symm) entry⟩
  exact hperm.eq_of_pairwise (fun x y _ _ hxy hyx => absurd hyx (lt_asymm hxy)) h h'

/-! ### Lists -/

theorem ascending_foldl (h : Ascending entries') :
    Ascending (entries.foldl (fun registry (m, a) => registry.register m a)
      (⟨entries'⟩ : Registry α)).entries := by
  induction entries generalizing entries' with
  | nil                => exact h
  | cons first entries ih => exact ih (h.insertEntry first.1 first.2)

theorem ascending_ofList (entries : List (String × α)) : Ascending (ofList entries).entries :=
  ascending_foldl .nil

theorem lookup_foldl (m : String) :
    (entries.foldl (fun registry (m, a) => registry.register m a)
        (⟨entries'⟩ : Registry α)).entries.lookup m =
      (entries.reverse.lookup m).or (entries'.lookup m) := by
  induction entries generalizing entries' with
  | nil => rfl
  | cons first entries ih =>
      obtain ⟨mimetype, a⟩ := first
      refine ih.trans ?_
      rw [lookup_insertEntry, List.reverse_cons, List.lookup_append, Option.or_assoc,
        lookup_cons_ite]
      by_cases h : m = mimetype
      · rw [if_pos h, if_pos h, Option.some_or]
      · rw [if_neg h, if_neg h, List.lookup_nil, Option.none_or]

/-- **Of the entries of a list**, the last one of a mimetype counts. -/
theorem lookup_ofList (entries : List (String × α)) (m : String) :
    (ofList entries).entries.lookup m = entries.reverse.lookup m := by
  rw [ofList, empty, lookup_foldl, List.lookup_nil, Option.or_none]

/-- **Lists** without a mimetype twice make the same registry where every mimetype has the same. -/
theorem ofList_eq_of_lookup (h : (entries.map Prod.fst).Nodup) (h' : (entries'.map Prod.fst).Nodup)
    (hlookup : ∀ m, entries.lookup m = entries'.lookup m) : ofList entries = ofList entries' := by
  have heach : ∀ m, (ofList entries).entries.lookup m = (ofList entries').entries.lookup m :=
    fun m => by
      rw [lookup_ofList, lookup_ofList, lookup_reverse h, lookup_reverse h', hlookup]
  exact congrArg Registry.mk <|
    (ascending_ofList entries).eq_of_lookup (ascending_ofList entries') heach

end NativeMessaging.Plugin.Registry
