import NativeMessaging.Files.Tree
import NativeMessaging.Proofs.Basic
import NativeMessaging.Subprocess.Installed

/-!
# Files — Tree: where ways lead, and what is left as it was

A way *leads* to the entries of a directory (`Entries.Leads`).  What is *seen* at the end of a way
(`Entries.seen`) is a file with all that belongs to it, or that there is a directory; two trees in
which the same is seen along every way differ at most in the times of their directories.

* `Leads.exists_change`: a change in a directory is seen only below that directory.
* `makeDirectories_of_list`: making a directory that is there changes nothing.
* `exists_sheds`: removing files of a directory one after the other takes away those files, and
  nothing else is seen differently.
* `Becomes.isSound`: in no directory a name is there twice or is too long (`IsSound`), and no
  operation breaks that.
-/

namespace NativeMessaging.Files

/-- What is seen of a node: all of a file, and of a directory that it is one. -/
def Node.surface : Node → Option (List UInt8 × Bool × Int)
  | .file bytes executable modified => some (bytes, executable, modified)
  | .directory _ _                  => none

namespace Entries

variable {entries inner : Entries} {way : List String} {name : String}

/-! ### Ways -/

/-- The way leads through directories, to one with the entries `inner`. -/
inductive Leads : Entries → List String → Entries → Prop where
  | here (entries : Entries) : Leads entries [] entries
  | inside {entries sub inner : Entries} {name : String} {way : List String} {t : Int}
      (hshort : name.utf8ByteSize ≤ maxNameSize)
      (hlookup : entries.lookup name = some (.directory sub t)) (hleads : Leads sub way inner) :
      Leads entries (name :: way) inner

/-- What is seen at the end of a way. -/
def seen (entries : Entries) (way : List String) :
    Except OsError (Option (List UInt8 × Bool × Int)) :=
  (entries.find way).map Node.surface

theorem find_cons {sub : Entries} {t : Int} (hshort : name.utf8ByteSize ≤ maxNameSize)
    (hlookup : entries.lookup name = some (.directory sub t)) :
    entries.find (name :: way) = if way.isEmpty then .ok (.directory sub t) else sub.find way := by
  rw [find, if_neg (Nat.not_lt.mpr hshort), hlookup]

/-- **A way leads to a directory** where one is found at its end. -/
theorem leads_iff : Leads entries way inner ↔ ∃ t, entries.find way = .ok (.directory inner t) := by
  constructor
  · intro h
    induction h with
    | here entries => exact ⟨0, rfl⟩
    | @inside _ sub _ _ way t hshort hlookup _ ih =>
        rw [find_cons hshort hlookup]
        cases way with
        | nil =>
            obtain ⟨_, hfind⟩ := ih
            rw [find] at hfind
            cases hfind
            exact ⟨t, rfl⟩
        | cons => exact ih
  · rintro ⟨t, hfind⟩
    induction way generalizing entries t with
    | nil =>
        rw [find] at hfind
        cases hfind
        exact .here _
    | cons name way ih =>
        rw [find] at hfind
        split at hfind
        · cases hfind
        · next hshort =>
          split at hfind
          · cases hfind
          · next sub t' hlookup =>
            refine .inside (Nat.not_lt.mp hshort) hlookup ?_
            split at hfind
            · next hway =>
              obtain rfl := List.isEmpty_iff.mp hway
              cases hfind
              exact .here _
            · exact ih _ hfind
          · split at hfind <;> cases hfind

/-- What is seen from a directory on is what is seen in it. -/
theorem seen_cons {sub : Entries} {t : Int} (hshort : name.utf8ByteSize ≤ maxNameSize)
    (hlookup : entries.lookup name = some (.directory sub t)) :
    entries.seen (name :: way) = sub.seen way := by
  rw [seen, find_cons hshort hlookup]
  cases way <;> rfl

theorem seen_cons_congr {entries' : Entries} (h : entries.lookup name = entries'.lookup name) :
    entries.seen (name :: way) = entries'.seen (name :: way) := by
  rw [seen, seen, find, find, h]

theorem Leads.seen_append (h : Leads entries way inner) (rest : List String) :
    entries.seen (way ++ rest) = inner.seen rest := by
  induction h with
  | here                        => rfl
  | inside hshort hlookup _ ih => exact (seen_cons hshort hlookup).trans ih

theorem leads_append {rest : List String} :
    Leads entries (way ++ rest) inner ↔
      ∃ middle, Leads entries way middle ∧ Leads middle rest inner := by
  constructor
  · intro h
    induction way generalizing entries with
    | nil => exact ⟨entries, .here entries, h⟩
    | cons name way ih =>
        cases h with
        | inside hshort hlookup h =>
            obtain ⟨middle, hmiddle, hrest⟩ := ih h
            exact ⟨middle, .inside hshort hlookup hmiddle, hrest⟩
  · rintro ⟨middle, hmiddle, hrest⟩
    induction hmiddle with
    | here                        => exact hrest
    | inside hshort hlookup _ ih => exact .inside hshort hlookup (ih hrest)

/-! ### Changes -/

theorem lookup_replace (name : String) (node : Node) (entries : Entries) (other : String) :
    (replace name node entries).lookup other =
      if other = name then (entries.lookup other).map fun _ => node else entries.lookup other := by
  induction entries with
  | nil => simp [replace]
  | cons entry entries ih =>
      obtain ⟨n, old⟩ := entry
      have hcons : replace name node ((n, old) :: entries) =
          (n, if n = name then node else old) :: replace name node entries := by
        have hentry : (if n = name then (n, node) else (n, old)) =
            (n, if n = name then node else old) := by
          split <;> rfl
        exact congrArg (· :: replace name node entries) hentry
      rw [hcons, List.lookup_cons, List.lookup_cons, ih]
      by_cases hother : other = n
      · subst hother
        rw [beq_self_eq_true]
        by_cases hname : other = name
        · simp only [if_pos hname, Option.map_some]
        · simp only [if_neg hname]
      · rw [beq_false_of_ne hother]

variable {now : Option Int} {f : String → Entries → Except OsError Entries}

theorem change_cons (now : Option Int) (f : String → Entries → Except OsError Entries)
    {sub : Entries} {t : Int} (hway : way ≠ [])
    (hlookup : entries.lookup name = some (.directory sub t)) :
    entries.change now f (name :: way) =
      (sub.change now f way).map fun inner =>
        replace name (.directory inner (if way.length = 1 then now.getD t else t)) entries := by
  rw [change, hlookup]
  · dsimp only
    cases sub.change now f way <;> rfl
  · exact hway

theorem exists_of_change_cons {entries' : Entries} (hway : way ≠ [])
    (h : entries.change now f (name :: way) = .ok entries') :
    ∃ sub t sub' t', entries.lookup name = some (.directory sub t) ∧
      change now f way sub = .ok sub' ∧ entries' = replace name (.directory sub' t') entries := by
  rw [change] at h
  · split at h
    · cases h
    · cases h
    · next sub t hlookup =>
      obtain ⟨sub', hsub, hentries⟩ := bind_eq_ok_iff.mp h
      exact ⟨sub, t, sub', _, hlookup, hsub, (Except.ok.inj hentries).symm⟩
  · exact hway

/-- **A change is seen only where it is made.**  Where a way leads to a directory that can be
changed, the change succeeds, the way leads to the changed entries, and along every way that does
not go through the directory the same is seen as before. -/
theorem Leads.exists_change {root inner' : Entries} (now : Option Int) (h : Leads root way inner)
    (hshort : name.utf8ByteSize ≤ maxNameSize) (hf : f name inner = .ok inner') :
    ∃ root', root.change now f (way ++ [name]) = .ok root' ∧ Leads root' way inner' ∧
      ∀ other, ¬ way <+: other → root'.seen other = root.seen other := by
  induction h with
  | here entries =>
      refine ⟨inner', ?_, .here inner', fun other hother => absurd other.nil_prefix hother⟩
      rw [List.nil_append, change, if_neg (Nat.not_lt.mpr hshort), hf]
  | @inside entries sub inner n way t hn hlookup _ ih =>
      obtain ⟨sub', hsub', hleads, hframe⟩ := ih hf
      have hway : way ++ [name] ≠ [] :=
        List.append_ne_nil_of_right_ne_nil way (List.cons_ne_nil _ _)
      have hchange := change_cons now f hway hlookup
      rw [hsub'] at hchange
      generalize (if (way ++ [name]).length = 1 then now.getD t else t) = t' at hchange
      have hlookup' (other : String) := lookup_replace n (.directory sub' t') entries other
      have hn' : (replace n (.directory sub' t') entries).lookup n = some (.directory sub' t') := by
        rw [hlookup', if_pos rfl, hlookup]
        rfl
      refine ⟨replace n (.directory sub' t') entries, hchange, .inside hn hn' hleads, ?_⟩
      -- a way through the replaced entry goes on in it, and any other way does not meet it
      intro other hother
      cases other with
      | nil => rfl
      | cons o other =>
          by_cases ho : o = n
          · subst ho
            have hother' : ¬ way <+: other := fun hp => hother (List.cons_prefix_cons.mpr ⟨rfl, hp⟩)
            rw [seen_cons hn hn', seen_cons hn hlookup, hframe other hother']
          · exact seen_cons_congr (by rw [hlookup', if_neg ho])

/-! ### Names -/

/-- In no directory a name is there twice or is too long. -/
inductive Sound : Entries → Prop where
  | intro {entries : Entries} (nodup : (entries.map Prod.fst).Nodup)
      (short : ∀ entry ∈ entries, entry.1.utf8ByteSize ≤ maxNameSize)
      (within : ∀ name inner t, (name, Node.directory inner t) ∈ entries → Sound inner) :
      Sound entries

namespace Sound

theorem nil : Sound [] :=
  .intro .nil (List.forall_mem_nil _) fun _ _ _ h => absurd h List.not_mem_nil

theorem nodup (h : Sound entries) : (entries.map Prod.fst).Nodup := by
  cases h with
  | intro nodup => exact nodup

theorem short (h : Sound entries) : ∀ entry ∈ entries, entry.1.utf8ByteSize ≤ maxNameSize := by
  cases h with
  | intro _ short => exact short

theorem within (h : Sound entries) {t : Int} (hmem : (name, Node.directory inner t) ∈ entries) :
    Sound inner := by
  cases h with
  | intro _ _ within => exact within _ _ _ hmem

theorem of_leads (h : Sound entries) (hleads : Leads entries way inner) : Sound inner := by
  induction hleads with
  | here                   => exact h
  | inside _ hlookup _ ih => exact ih (h.within (mem_of_lookup hlookup))

theorem erase (h : Sound entries) (name : String) : Sound (erase name entries) := by
  have hsub : (Entries.erase name entries).Sublist entries := List.filter_sublist
  exact .intro (h.nodup.sublist (hsub.map _)) (fun e he => h.short e (hsub.subset he))
    fun _ _ _ hmem => h.within (hsub.subset hmem)

/-- A new node does not break soundness unless it is a directory in which it is broken. -/
theorem append {node : Node} (h : Sound entries) (hshort : name.utf8ByteSize ≤ maxNameSize)
    (hnew : entries.lookup name = none)
    (hnode : ∀ inner t, node = .directory inner t → Sound inner) :
    Sound (entries ++ [(name, node)]) := by
  refine .intro ?_ ?_ ?_
  · rw [List.map_append, List.nodup_append]
    refine ⟨h.nodup, List.nodup_singleton _, ?_⟩
    intro n hn m hm heq
    obtain ⟨entry, hentry, rfl⟩ := List.mem_map.mp hn
    obtain rfl : m = name := by simpa using hm
    simpa [heq] using List.lookup_eq_none_iff.mp hnew entry hentry
  · intro entry hentry
    rcases List.mem_append.mp hentry with hold | hnew
    · exact h.short entry hold
    · obtain rfl := List.mem_singleton.mp hnew
      exact hshort
  · intro n inner t hmem
    rcases List.mem_append.mp hmem with hold | hnew
    · exact h.within hold
    · exact hnode inner t (Prod.mk.inj (List.mem_singleton.mp hnew)).2.symm

/-- Files alone are sound where their names are. -/
theorem of_files (nodup : (entries.map Prod.fst).Nodup)
    (short : ∀ entry ∈ entries, entry.1.utf8ByteSize ≤ maxNameSize)
    (hfiles : ∀ entry ∈ entries, entry.2.isDirectory = false) : Sound entries := by
  refine .intro nodup short fun name inner t hmem => ?_
  cases hfiles _ hmem

theorem singleton {t : Int} (h : Sound inner) (hshort : name.utf8ByteSize ≤ maxNameSize) :
    Sound [(name, .directory inner t)] :=
  nil.append hshort rfl fun _ _ heq => by
    cases heq
    exact h

/-- What every system has is sound. -/
theorem installed : Sound Subprocess.installed := by
  have hprograms : Sound (Subprocess.programNames.map fun name =>
      (name, Node.file (Text.Utf8.encode name) true 0)) :=
    .of_files (by decide) (by decide) (by decide)
  refine .intro (by decide) (by decide) fun name inner t hmem => ?_
  simp only [Subprocess.installed, List.mem_cons, Prod.mk.injEq, List.not_mem_nil, or_false] at hmem
  rcases hmem with ⟨-, h⟩ | ⟨-, h⟩ | ⟨-, h⟩ | ⟨-, h⟩ | ⟨-, h⟩ | ⟨-, h⟩ | ⟨-, h⟩ | ⟨-, h⟩ <;> cases h
  · exact hprograms
  · exact .of_files (by decide) (by decide) (by decide)
  · exact .of_files (by decide) (by decide) (by decide)
  · exact .nil
  · exact .nil
  · exact .nil
  · exact hprograms.singleton (by decide)
  · exact nil.singleton (by decide)

theorem replace {node : Node} (h : Sound entries)
    (hnode : ∀ inner t, node = .directory inner t → Sound inner) :
    Sound (replace name node entries) := by
  have hnames : (Entries.replace name node entries).map Prod.fst = entries.map Prod.fst := by
    rw [Entries.replace, List.map_map]
    refine List.map_congr_left fun entry _ => ?_
    dsimp only [Function.comp_apply]
    split <;> rfl
  refine .intro (hnames ▸ h.nodup) ?_ ?_
  · intro entry hentry
    have hmem : entry.1 ∈ entries.map Prod.fst := hnames ▸ List.mem_map_of_mem hentry
    obtain ⟨old, hold, hname⟩ := List.mem_map.mp hmem
    exact hname ▸ h.short old hold
  · intro n inner t hmem
    obtain ⟨⟨m, old⟩, hold, heq⟩ := List.mem_map.mp hmem
    dsimp only at heq
    split at heq
    · exact hnode inner t (Prod.mk.inj heq).2
    · obtain ⟨rfl, rfl⟩ := Prod.mk.inj heq
      exact h.within hold

/-- A change does not break soundness unless it does so in the directory that it changes. -/
theorem change {entries' : Entries}
    (hf : ∀ inner inner' name, Sound inner → name.utf8ByteSize ≤ maxNameSize →
      f name inner = .ok inner' → Sound inner')
    (h : Sound entries) (hchange : entries.change now f way = .ok entries') : Sound entries' := by
  induction way generalizing entries entries' with
  | nil => cases hchange
  | cons name way ih =>
      cases way with
      | nil =>
          rw [Entries.change] at hchange
          split at hchange
          · cases hchange
          · next hshort => exact hf _ _ _ h (Nat.not_lt.mp hshort) hchange
      | cons next way =>
          obtain ⟨sub, t, sub', t', hlookup, hsub, rfl⟩ :=
            exists_of_change_cons (List.cons_ne_nil _ _) hchange
          -- only the entry on the way is replaced, by a directory that is sound
          have hsound := ih (h.within (mem_of_lookup hlookup)) hsub
          refine h.replace fun inner t heq => ?_
          cases heq
          exact hsound

end Sound

end Entries

open Entries (Leads Sound)

namespace Tree

variable {tree tree' : Tree} {path : Path} {entries : Entries} {way : List String} {name : String}

/-! ### What is listed -/

/-- **What is listed** is the directory to which the way leads. -/
theorem list_eq_ok_iff :
    tree.list path = .ok entries ↔
      path.text.isEmpty = false ∧ Leads tree.root (path.resolve tree.working) entries := by
  rw [Entries.leads_iff, list, find]
  cases path.text.isEmpty with
  | true =>
      rw [if_pos rfl]
      constructor
      · intro h
        cases h
      · rintro ⟨h, -⟩
        cases h
  | false =>
      rw [if_neg Bool.false_ne_true]
      cases tree.root.find (path.resolve tree.working) with
      | error e =>
          constructor
          · intro h
            cases h
          · rintro ⟨-, t, h⟩
            cases h
      | ok node =>
          cases node with
          | file =>
              constructor
              · intro h
                cases hslash : path.endsInSlash <;> simp [hslash, bind, Except.bind] at h
              · rintro ⟨-, t, h⟩
                cases h
          | directory inner t =>
              constructor
              · intro h
                obtain rfl : inner = entries := Except.ok.inj h
                exact ⟨rfl, t, rfl⟩
              · rintro ⟨-, t', h⟩
                cases h
                rfl

/-! ### Directories that are there -/

theorem makeWay_of_leads {made : List String} (h : Leads tree.root (made ++ way) entries) :
    tree.makeWay way made = .ok tree := by
  induction way generalizing made with
  | nil => rfl
  | cons name way ih =>
      rw [← List.singleton_append, ← List.append_assoc] at h
      obtain ⟨inner, hinner, -⟩ := Entries.leads_append.mp h
      obtain ⟨t, hfind⟩ := Entries.leads_iff.mp hinner
      rw [makeWay, hfind]
      exact ih h

/-- **Making a directory that is there changes nothing.** -/
theorem makeDirectories_of_list (h : tree.list path = .ok entries) :
    tree.makeDirectories path = .ok tree :=
  makeWay_of_leads (list_eq_ok_iff.mp h).2

/-! ### Removal -/

/-- A change made below a directory. -/
theorem exists_change {inner inner' : Entries} {f : String → Entries → Except OsError Entries}
    (h : Leads tree.root way inner) (hshort : name.utf8ByteSize ≤ maxNameSize)
    (hf : f name inner = .ok inner') :
    ∃ tree', tree.change (way ++ [name]) f = .ok tree' ∧ tree'.working = tree.working ∧
      Leads tree'.root way inner' ∧
      ∀ other, ¬ way <+: other → tree'.root.seen other = tree.root.seen other := by
  obtain ⟨root, hroot, hleads, hframe⟩ := h.exists_change (some tree.clock) hshort hf
  refine ⟨{ tree with root := root, clock := tree.clock + 1 }, ?_, rfl, hleads, hframe⟩
  rw [change, hroot]
  rfl

/-- A file that is there can be removed. -/
theorem exists_removeFile {inner : Entries} {bytes : List UInt8} {executable : Bool} {t : Int}
    (h : Leads tree.root way inner) (hsound : inner.Sound)
    (hfile : (name, Node.file bytes executable t) ∈ inner) :
    ∃ tree', tree.removeFile (way ++ [name]) = .ok tree' ∧ tree'.working = tree.working ∧
      Leads tree'.root way (Entries.erase name inner) ∧
      ∀ other, ¬ way <+: other → tree'.root.seen other = tree.root.seen other := by
  have hlookup := lookup_of_mem hsound.nodup hfile
  exact exists_change h (hsound.short _ hfile) (by rw [hlookup])

/-- Files of one directory are removed one after the other: what is left of the directory is the
rest, and nothing outside of it is seen differently. -/
theorem exists_removeFiles {names : List String} {inner : Entries} (h : Leads tree.root way inner)
    (hsound : inner.Sound) (hnodup : names.Nodup)
    (hfiles : ∀ name ∈ names, ∃ bytes executable t, (name, Node.file bytes executable t) ∈ inner) :
    ∃ tree', names.foldlM (fun tree name => tree.removeFile (way ++ [name])) tree = .ok tree' ∧
      tree'.working = tree.working ∧
      Leads tree'.root way (inner.filter fun entry => decide (entry.1 ∉ names)) ∧
      ∀ other, ¬ way <+: other → tree'.root.seen other = tree.root.seen other := by
  induction names generalizing tree inner with
  | nil => exact ⟨tree, rfl, rfl, by simpa using h, fun _ _ => rfl⟩
  | cons name names ih =>
      obtain ⟨hnew, hnodup⟩ := List.nodup_cons.mp hnodup
      obtain ⟨_, _, _, hfile⟩ := hfiles name (List.mem_cons_self ..)
      obtain ⟨tree₁, hremove, hworking₁, hleads₁, hframe₁⟩ := exists_removeFile h hsound hfile
      -- the names are distinct, so the other files are still there
      have hfiles₁ : ∀ other ∈ names, ∃ bytes executable t,
          (other, Node.file bytes executable t) ∈ Entries.erase name inner := by
        intro other hother
        obtain ⟨bytes, executable, t, hmem⟩ := hfiles other (List.mem_cons_of_mem _ hother)
        have hne : other ≠ name := fun heq => hnew (heq ▸ hother)
        exact ⟨bytes, executable, t, List.mem_filter.mpr ⟨hmem, by simpa using hne⟩⟩
      obtain ⟨tree', hrest, hworking, hleads, hframe⟩ :=
        ih hleads₁ (hsound.erase name) hnodup hfiles₁
      refine ⟨tree', ?_, hworking.trans hworking₁, ?_,
        fun other hother => (hframe other hother).trans (hframe₁ other hother)⟩
      · rw [List.foldlM_cons, hremove]
        exact hrest
      · have hsame : (Entries.erase name inner).filter (fun entry => decide (entry.1 ∉ names)) =
            inner.filter fun entry => decide (entry.1 ∉ name :: names) := by
          rw [Entries.erase, List.filter_filter]
          refine List.filter_congr fun entry _ => ?_
          rw [Bool.eq_iff_iff]
          simp [and_comm]
        rwa [hsame] at hleads

/-- Between the trees, a directory loses the entries of some names: it lists the others in the order
and with the nodes that they had, and along every way that does not go through a lost entry the same
is seen as before. -/
structure Sheds (tree : Tree) (path : Path) (names : List String) (tree' : Tree) : Prop where
  listed : ∀ entries, tree.list path = .ok entries →
    tree'.list path = .ok (entries.filter fun entry => decide (entry.1 ∉ names))
  rest : ∀ way, (∀ name ∈ names, ¬ (path.resolve tree.working ++ [name]) <+: way) →
    tree'.root.seen way = tree.root.seen way

theorem Sheds.congr {names names' : List String} (h : tree.Sheds path names tree')
    (hsame : ∀ name, name ∈ names ↔ name ∈ names') : tree.Sheds path names' tree' := by
  refine ⟨fun entries hlist => ?_, fun way hkept => h.rest way fun name hname => ?_⟩
  · rw [h.listed entries hlist]
    exact congrArg Except.ok <|
      List.filter_congr fun entry _ => decide_eq_decide.mpr (not_congr (hsame entry.1))
  · exact hkept name ((hsame name).mp hname)

/-- **What the removal of files takes away**: those files. -/
theorem exists_sheds {names : List String} (hlist : tree.list path = .ok entries)
    (hsound : entries.Sound) (hnodup : names.Nodup)
    (hfiles : ∀ name ∈ names, ∃ bytes executable t,
      (name, Node.file bytes executable t) ∈ entries) :
    ∃ tree', names.foldlM
        (fun tree' name => tree'.removeFile (path.resolve tree.working ++ [name])) tree =
          .ok tree' ∧
      tree.Sheds path names tree' := by
  obtain ⟨htext, hleads⟩ := list_eq_ok_iff.mp hlist
  obtain ⟨tree', hremove, hworking, hleads', hframe⟩ :=
    exists_removeFiles hleads hsound hnodup hfiles
  refine ⟨tree', hremove, ?_, ?_⟩
  · intro entries' hlist'
    obtain rfl := Except.ok.inj (hlist.symm.trans hlist')
    exact list_eq_ok_iff.mpr ⟨htext, hworking ▸ hleads'⟩
  · intro other hkept
    -- in the directory the listing decides, and outside of it nothing was changed
    by_cases hother : path.resolve tree.working <+: other
    · obtain ⟨rest, rfl⟩ := hother
      rw [hleads'.seen_append, hleads.seen_append]
      cases rest with
      | nil => rfl
      | cons name rest =>
          have hname : name ∉ names := by
            intro hmem
            refine hkept name hmem ⟨rest, ?_⟩
            rw [List.append_assoc, List.singleton_append]
          refine Entries.seen_cons_congr ?_
          rw [lookup_filter fun name => decide (name ∉ names)]
          exact if_pos (decide_eq_true hname)
    · exact hframe other hother

/-! ### Soundness -/

/-- In no directory a name is there twice or is too long. -/
def IsSound (tree : Tree) : Prop := tree.root.Sound

theorem IsSound.change {f : String → Entries → Except OsError Entries}
    (hf : ∀ inner inner' name, Sound inner → name.utf8ByteSize ≤ maxNameSize →
      f name inner = .ok inner' → Sound inner')
    (h : tree.IsSound) (hchange : tree.change way f = .ok tree') : tree'.IsSound := by
  obtain ⟨root, hroot, hrest⟩ := bind_eq_ok_iff.mp hchange
  obtain rfl := Except.ok.inj hrest
  exact Sound.change hf h hroot

theorem IsSound.makeDirectory (h : tree.IsSound) (hmake : tree.makeDirectory way = .ok tree') :
    tree'.IsSound := by
  refine h.change (fun inner inner' name hsound hshort hnew => ?_) hmake
  cases hlookup : inner.lookup name with
  | some node =>
      rw [hlookup] at hnew
      cases hnew
  | none =>
      rw [hlookup] at hnew
      cases hnew
      refine hsound.append hshort hlookup fun inner t heq => ?_
      cases heq
      exact .nil

theorem IsSound.writeFile {bytes : List UInt8} {modified : Option Int} (h : tree.IsSound)
    (hwrite : tree.writeFile way bytes modified = .ok tree') : tree'.IsSound := by
  refine h.change (fun inner inner' name hsound hshort hnew => ?_) hwrite
  cases hlookup : inner.lookup name with
  | none =>
      rw [hlookup] at hnew
      cases hnew
      exact hsound.append hshort hlookup fun inner t heq => by cases heq
  | some node =>
      rw [hlookup] at hnew
      cases node with
      | file =>
          cases hnew
          exact hsound.replace fun inner t heq => by cases heq
      | directory => cases hnew

theorem IsSound.removeFile (h : tree.IsSound) (hremove : tree.removeFile way = .ok tree') :
    tree'.IsSound := by
  refine h.change (fun inner inner' name hsound _ hrest => ?_) hremove
  cases hlookup : inner.lookup name with
  | none =>
      rw [hlookup] at hrest
      cases hrest
  | some node =>
      rw [hlookup] at hrest
      cases node with
      | file =>
          cases hrest
          exact hsound.erase name
      | directory => cases hrest

theorem IsSound.setModified {t : Int} (h : tree.IsSound)
    (hset : tree.setModified way t = .ok tree') : tree'.IsSound := by
  obtain ⟨root, hroot, hrest⟩ := bind_eq_ok_iff.mp hset
  obtain rfl := Except.ok.inj hrest
  refine Sound.change (fun inner inner' name hsound _ hnew => ?_) h hroot
  cases hlookup : inner.lookup name with
  | none =>
      rw [hlookup] at hnew
      cases hnew
  | some node =>
      rw [hlookup] at hnew
      cases hnew
      refine hsound.replace fun sub t' heq => ?_
      cases node with
      | file => cases heq
      | directory =>
          cases heq
          exact hsound.within (mem_of_lookup hlookup)

/-- What operations make of a tree, one after the other. -/
inductive Becomes (tree : Tree) : Tree → Prop where
  | refl : Becomes tree tree
  | makeDirectory {middle tree' : Tree} {way : List String} (h : Becomes tree middle)
      (hmake : middle.makeDirectory way = .ok tree') : Becomes tree tree'
  | writeFile {middle tree' : Tree} {way : List String} {bytes : List UInt8} {modified : Option Int}
      (h : Becomes tree middle) (hwrite : middle.writeFile way bytes modified = .ok tree') :
      Becomes tree tree'
  | removeFile {middle tree' : Tree} {way : List String} (h : Becomes tree middle)
      (hremove : middle.removeFile way = .ok tree') : Becomes tree tree'
  | setModified {middle tree' : Tree} {way : List String} {t : Int} (h : Becomes tree middle)
      (hset : middle.setModified way t = .ok tree') : Becomes tree tree'

theorem Becomes.makeWay {start : Tree} {made : List String} (h : start.Becomes tree)
    (hmake : tree.makeWay way made = .ok tree') : start.Becomes tree' := by
  induction way generalizing tree made with
  | nil =>
      obtain rfl := Except.ok.inj hmake
      exact h
  | cons name way ih =>
      rw [Tree.makeWay] at hmake
      split at hmake
      · exact ih h hmake
      · cases hmake
      · obtain ⟨tree₁, hdirectory, hrest⟩ := bind_eq_ok_iff.mp hmake
        exact ih (h.makeDirectory hdirectory) hrest

theorem Becomes.removeFiles {start : Tree} {names : List String} (h : start.Becomes tree)
    (hremove : names.foldlM (fun tree name => tree.removeFile (way ++ [name])) tree = .ok tree') :
    start.Becomes tree' := by
  induction names generalizing tree with
  | nil =>
      obtain rfl := Except.ok.inj hremove
      exact h
  | cons name names ih =>
      rw [List.foldlM_cons] at hremove
      obtain ⟨tree₁, hfile, hrest⟩ := bind_eq_ok_iff.mp hremove
      exact ih (h.removeFile hfile) hrest

/-- **Operations keep trees sound.** -/
theorem Becomes.isSound (h : tree.Becomes tree') (hsound : tree.IsSound) : tree'.IsSound := by
  induction h with
  | refl                          => exact hsound
  | makeDirectory _ hmake ih      => exact ih.makeDirectory hmake
  | writeFile _ hwrite ih         => exact ih.writeFile hwrite
  | removeFile _ hremove ih       => exact ih.removeFile hremove
  | setModified _ hset ih         => exact ih.setModified hset

end Tree

end NativeMessaging.Files
