import NativeMessaging.Proofs.Files.Retention

/-!
# Files — Retention: what is not a log

A daily log has the name that is set, alone or with a point and a day behind it (`IsDailyName`).
Retention looks at the beginning of a name only.  What it gets to (`reached`) are the entries that
are too many, the oldest first, up to the first directory.

* `spares_iff`: what is not reached is left as it is and does not make the preparation fail, and
  what is reached is removed or makes it fail.
* `mem_reached_iff`: where no two entries have the same time, the outdated entries are reached that
  are no newer than any outdated directory.
* `Logs.spares_foreign_iff`: entries that are no daily logs are spared exactly where all that is
  reached are daily logs.
-/

namespace NativeMessaging

namespace Files

/-! ### Names -/

/-- A day in the form `YYYY-MM-DD`. -/
def isDay : List Char → Bool
  | [a, b, c, d, '-', e, f, '-', g, h] => [a, b, c, d, e, f, g, h].all Char.isDigit
  | _                                  => false

/-- A name that a daily log has: the one that is set, or that one with a point and a day behind
it. -/
def IsDailyName (stem name : String) : Prop :=
  name = stem ∨ ∃ day, isDay day = true ∧ name.toList = stem.toList ++ '.' :: day

instance (stem name : String) : Decidable (IsDailyName stem name) :=
  decidable_of_iff
    (name = stem ∨ stem.toList ++ ['.'] <+: name.toList ∧
      isDay (name.toList.drop (stem.toList ++ ['.']).length) = true) <| by
    refine or_congr_right ⟨?_, ?_⟩
    · rintro ⟨⟨day, hname⟩, hday⟩
      rw [← hname, List.drop_left] at hday
      exact ⟨day, hday, by rw [← hname, List.append_assoc, List.singleton_append]⟩
    · rintro ⟨day, hday, hname⟩
      rw [← List.singleton_append, ← List.append_assoc] at hname
      rw [hname, List.drop_left]
      exact ⟨List.prefix_append _ _, hday⟩

/-- Names without a slash lead to different places of one directory. -/
theorem Path.join_injective {path : Path} {name other : String} (hname : '/' ∉ name.toList)
    (hother : '/' ∉ other.toList) (h : path.join name = path.join other) : name = other := by
  have hrelative {name : String} (hslash : '/' ∉ name.toList) : Path.isAbsolute ⟨name⟩ = false := by
    rw [isAbsolute, beq_eq_false_iff_ne]
    exact fun hhead => hslash (List.mem_of_head? hhead)
  rw [join, join, hrelative hname, hrelative hother, Bool.false_or] at h
  split at h
  · exact Path.mk.inj h
  · split at h
    · exact String.append_right_inj _ |>.mp (Path.mk.inj h)
    · exact String.append_right_inj _ |>.mp (Path.mk.inj h)

namespace Retention

variable {stem : String} {keep : Nat} {entries surplus : List Listed} {entry : Listed}

/-! ### What the removal gets to -/

/-- The files before the first directory, and that directory. -/
def reached (surplus : List Listed) : List Listed :=
  surplus.takeWhile (!·.isDirectory) ++ (surplus.dropWhile (!·.isDirectory)).head?.toList

theorem reached_sublist (surplus : List Listed) : (reached surplus).Sublist surplus := by
  have hhead : (surplus.dropWhile (!·.isDirectory)).head?.toList.Sublist
      (surplus.dropWhile (!·.isDirectory)) := by
    cases surplus.dropWhile (!·.isDirectory) with
    | nil            => exact .refl _
    | cons first rest => exact (List.nil_sublist rest).cons_cons first
  calc
    (reached surplus).Sublist
        (surplus.takeWhile (!·.isDirectory) ++ surplus.dropWhile (!·.isDirectory)) :=
      (List.Sublist.refl _).append hhead
    _ = surplus := List.takeWhile_append_dropWhile

theorem mem_reached_of_ascending (h : Ascending surplus) :
    entry ∈ reached surplus ↔
      entry ∈ surplus ∧
        ∀ old ∈ surplus, old.isDirectory = true → entry.modified ≤ old.modified := by
  induction surplus with
  | nil => simp [reached]
  | cons first surplus ih =>
      obtain ⟨hfirst, hsurplus⟩ := List.pairwise_cons.mp h
      cases hdirectory : first.isDirectory with
      | true =>
          -- nothing behind a directory is reached, and all of that is newer
          have hreached : reached (first :: surplus) = [first] := by simp [reached, hdirectory]
          rw [hreached, List.mem_singleton]
          constructor
          · rintro rfl
            refine ⟨List.mem_cons_self .., fun old hold _ => ?_⟩
            rcases List.mem_cons.mp hold with rfl | hold
            · exact Int.le_refl _
            · exact Int.le_of_lt (hfirst old hold)
          · rintro ⟨hentry, hle⟩
            rcases List.mem_cons.mp hentry with rfl | hentry
            · rfl
            · have hnewer := hle first (List.mem_cons_self ..) hdirectory
              exact absurd (hfirst entry hentry) (Int.not_lt.mpr hnewer)
      | false =>
          have hreached : reached (first :: surplus) = first :: reached surplus := by
            simp [reached, hdirectory]
          rw [hreached, List.mem_cons, ih hsurplus, List.mem_cons]
          constructor
          · rintro (rfl | ⟨hentry, hle⟩)
            · refine ⟨.inl rfl, fun old hold _ => ?_⟩
              rcases List.mem_cons.mp hold with rfl | hold
              · exact Int.le_refl _
              · exact Int.le_of_lt (hfirst old hold)
            · refine ⟨.inr hentry, fun old hold hold' => ?_⟩
              rcases List.mem_cons.mp hold with rfl | hold
              · rw [hdirectory] at hold'
                cases hold'
              · exact hle old hold hold'
          · rintro ⟨rfl | hentry, hle⟩
            · exact .inl rfl
            · exact .inr ⟨hentry, fun old hold => hle old (List.mem_cons_of_mem _ hold)⟩

end Retention

end Files

namespace Logs

open Files (Tree Entries Listed Node IsDailyName)
open Files.Retention

variable {logging : Settings.Logging} {dirs : Directories} {tree tree' : Tree} {entries : Entries}
  {entry : String × Node}

/-- The entries of the directory of the logs that the removal gets to. -/
def reachedLogs (logging : Settings.Logging) (entries : Entries) : List Listed :=
  reached (surplus (logging.fileName.getD defaultName) logging.maxFiles (listed entries))

/-- An entry is there as it was once the logs are prepared, and the preparation did not fail because
of it. -/
structure Spares (logging : Settings.Logging) (dirs : Directories) (tree : Tree)
    (entry : String × Node) : Prop where
  kept : ∃ entries', (prepare logging dirs tree).2.list dirs.log = .ok entries' ∧ entry ∈ entries'
  blameless : ∀ cause,
    (prepare logging dirs tree).1 ≠ .error (.cleanup (dirs.log.join entry.1) cause)

/-- What becomes of a directory of logs, whatever is in it. -/
theorem exists_prepare (logging : Settings.Logging) (hsound : entries.Sound)
    (hlist : tree.list dirs.log = .ok entries) :
    ∃ (files : List Listed) (stuck : Option Listed) (tree' : Tree),
      reachedLogs logging entries = files ++ stuck.toList ∧
      prepare logging dirs tree =
        (stuck.elim (.ok ()) fun old => .error (.cleanup (dirs.log.join old.name) .isDirectory),
          tree') ∧
      tree.Sheds dirs.log (files.map Listed.name) tree' := by
  obtain ⟨tree', hclean, hsheds⟩ := exists_clean hsound hlist rfl (List.takeWhile_sublist _)
    fun old hold => by simpa using List.mem_takeWhile_imp hold
  refine ⟨_, _, tree', rfl, ?_, hsheds⟩
  rw [prepare_of_clean hlist hclean]
  generalize ((surplus _ _ _).dropWhile _).head? = stuck
  cases stuck <;> rfl

theorem mem_of_mem_reachedLogs {old : Listed} (h : old ∈ reachedLogs logging entries) :
    old ∈ logs logging entries :=
  oldestFirst_perm.subset (surplus_sublist.subset ((reached_sublist _).subset h))

/-- What is a log has its name from an entry. -/
theorem exists_of_mem_logs {old : Listed} (h : old ∈ logs logging entries) :
    ∃ entry ∈ entries, entry.1 = old.name := by
  obtain ⟨entry, hentry, rfl⟩ := List.mem_map.mp (List.mem_filter.mp h).1
  exact ⟨entry, hentry, rfl⟩

/-- **What is not reached is spared, and nothing else is.** -/
theorem spares_iff (logging : Settings.Logging) (hsound : entries.Sound)
    (hlist : tree.list dirs.log = .ok entries)
    (hnames : ∀ entry ∈ entries, '/' ∉ entry.1.toList) (hentry : entry ∈ entries) :
    Spares logging dirs tree entry ↔ ∀ old ∈ reachedLogs logging entries, old.name ≠ entry.1 := by
  obtain ⟨files, stuck, tree', hreached, hprepare, hsheds⟩ := exists_prepare logging hsound hlist
  have hlist' := hsheds.listed entries hlist
  constructor
  · rintro ⟨⟨entries', hentries', hkept⟩, hblameless⟩ old hold hname
    rw [hprepare] at hentries' hblameless
    obtain rfl := Except.ok.inj (hlist'.symm.trans hentries')
    rw [hreached] at hold
    rcases List.mem_append.mp hold with hfile | hstuck
    · have hgone := of_decide_eq_true (List.mem_filter.mp hkept).2
      exact hgone (hname ▸ List.mem_map_of_mem hfile)
    · obtain rfl := Option.mem_toList.mp hstuck
      exact hblameless .isDirectory (by rw [← hname]; rfl)
  · intro hother
    refine ⟨⟨_, by rw [hprepare]; exact hlist', List.mem_filter.mpr ⟨hentry, ?_⟩⟩, ?_⟩
    · refine decide_eq_true fun hmem => ?_
      obtain ⟨old, hold, hname⟩ := List.mem_map.mp hmem
      exact hother old (hreached ▸ List.mem_append_left _ hold) hname
    · intro cause hcause
      rw [hprepare] at hcause
      cases stuck with
      | none     => cases hcause
      | some old =>
          have hold : old ∈ reachedLogs logging entries :=
            hreached ▸ List.mem_append_right _ (Option.mem_toList.mpr rfl)
          obtain ⟨other, hmem, hname⟩ := exists_of_mem_logs (mem_of_mem_reachedLogs hold)
          have hpath : dirs.log.join old.name = dirs.log.join entry.1 := by
            injection hcause with hcause
            injection hcause
          exact hother old hold <|
            Files.Path.join_injective (hname ▸ hnames other hmem) (hnames entry hentry) hpath

/-- Where no two entries have the same time, the outdated entries are reached that are no newer than
any outdated directory. -/
theorem mem_reachedLogs_iff (logging : Settings.Logging) {old : Listed}
    (htimes : DistinctTimes (logging.fileName.getD defaultName) (listed entries)) :
    old ∈ reachedLogs logging entries ↔ old ∈ outdated logging entries ∧
      ∀ other ∈ outdated logging entries, other.isDirectory = true →
        old.modified ≤ other.modified := by
  have hperm := surplus_perm logging.maxFiles htimes
  have hascending : Ascending
      (surplus (logging.fileName.getD defaultName) logging.maxFiles (listed entries)) :=
    (ascending_oldestFirst htimes).sublist surplus_sublist
  rw [reachedLogs, mem_reached_of_ascending hascending, hperm.mem_iff]
  simp only [hperm.mem_iff]
  rfl

/-- **Retention touches only daily logs** exactly where all that the removal gets to are daily logs:
then every entry with another name is spared, and else one of them is not.  Entries whose names do
not start with the name that is set are always spared.  Where no two entries have the same time, the
removal gets to the outdated entries that are no newer than any outdated directory. -/
theorem spares_foreign_iff (logging : Settings.Logging) (hsound : tree.IsSound)
    (hlist : tree.list dirs.log = .ok entries)
    (hnames : ∀ entry ∈ entries, '/' ∉ entry.1.toList) :
    ((∀ entry ∈ entries, ¬ IsDailyName (logging.fileName.getD defaultName) entry.1 →
        Spares logging dirs tree entry) ↔
      ∀ old ∈ reachedLogs logging entries,
        IsDailyName (logging.fileName.getD defaultName) old.name) ∧
    (∀ entry ∈ entries,
      ¬ (logging.fileName.getD defaultName).toList <+: entry.1.toList →
        Spares logging dirs tree entry) ∧
    (((listed entries).map Listed.modified).Nodup →
      ∀ old, old ∈ reachedLogs logging entries ↔ old ∈ outdated logging entries ∧
        ∀ other ∈ outdated logging entries, other.isDirectory = true →
          old.modified ≤ other.modified) := by
  have hentries := hsound.of_leads (Tree.list_eq_ok_iff.mp hlist).2
  have hspares {entry : String × Node} (hentry : entry ∈ entries) :=
    spares_iff logging hentries hlist hnames hentry
  refine ⟨⟨fun hall old hold => ?_, fun hall entry hentry hforeign => ?_⟩,
    fun entry hentry hprefix => ?_, fun htimes old => ?_⟩
  · obtain ⟨entry, hentry, hname⟩ := exists_of_mem_logs (mem_of_mem_reachedLogs hold)
    by_contra hforeign
    rw [← hname] at hforeign
    exact (hspares hentry).mp (hall entry hentry hforeign) old hold hname.symm
  · refine (hspares hentry).mpr fun old hold hname => hforeign ?_
    exact hname ▸ hall old hold
  · refine (hspares hentry).mpr fun old hold hname => hprefix ?_
    have hmatch := (List.mem_filter.mp (mem_of_mem_reachedLogs hold)).2
    exact hname ▸ List.isPrefixOf_iff_prefix.mp hmatch
  · exact mem_reachedLogs_iff logging (distinctTimes_of_nodup htimes _)

/-! ### Directories of logs -/

/-- All files, where only the logs are there. -/
def treeOf (entries : Entries) : Tree := ⟨[("logs", .directory entries 0)], [], 0⟩

/-- The directories of a host whose logs are there. -/
def places : Directories := ⟨⟨"/config"⟩, ⟨"/data"⟩, ⟨"/logs"⟩⟩

theorem isSound_treeOf (hsound : entries.Sound) : (treeOf entries).IsSound :=
  hsound.singleton (by decide)

theorem list_treeOf (entries : Entries) : (treeOf entries).list places.log = .ok entries := by
  have hway : places.log.resolve [] = ["logs"] := by decide
  refine Tree.list_eq_ok_iff.mpr ⟨rfl, ?_⟩
  rw [treeOf, hway]
  exact .inside (by decide) rfl (.here entries)

/-- A directory whose names are sound, and in which no directory holds anything. -/
theorem sound_of_empty (nodup : (entries.map Prod.fst).Nodup)
    (short : ∀ entry ∈ entries, entry.1.utf8ByteSize ≤ Files.maxNameSize)
    (hempty : ∀ name inner t, (name, Node.directory inner t) ∈ entries → inner = []) :
    entries.Sound :=
  .intro nodup short fun name inner t hmem => by
    rw [hempty name inner t hmem]
    exact .nil

/-- Four entries start like a log, among them a directory.  Where four may stay, whatever is no
daily log is spared. -/
theorem spares_foreign_iff_littered :
    ((treeOf littered).IsSound ∧ (treeOf littered).list places.log = .ok littered ∧
      ∀ entry ∈ littered, '/' ∉ entry.1.toList) ∧
    ∀ entry ∈ littered, ¬ IsDailyName "host.log" entry.1 →
      Spares ⟨.info, 4, false, some "host.log"⟩ places (treeOf littered) entry := by
  have hsound : (treeOf littered).IsSound :=
    isSound_treeOf (sound_of_empty (by decide) (by decide) (by simp +contextual [littered]))
  have hnames : ∀ entry ∈ littered, '/' ∉ entry.1.toList := by decide
  obtain ⟨hspares, -, hreached⟩ := spares_foreign_iff ⟨.info, 4, false, some "host.log"⟩ hsound
    (list_treeOf littered) hnames
  refine ⟨⟨hsound, list_treeOf littered, hnames⟩, hspares.mpr fun old hold => ?_⟩
  have hnone : outdated ⟨.info, 4, false, some "host.log"⟩ littered = [] := by decide
  have hold := ((hreached (by decide) old).mp hold).1
  rw [hnone] at hold
  cases hold

/-- One daily log, and something older. -/
def besides (name : String) (node : Node) : Entries :=
  [(name, node), ("wyrmhole.log.2026-01-02", .file [] false 20)]

/-- Where one log may stay, a file whose name goes on behind the log's name is removed, and a
directory with such a name makes the preparation fail. -/
theorem not_spares_foreign :
    let logging : Settings.Logging := ⟨.info, 1, false, none⟩
    (¬ IsDailyName defaultName "wyrmhole.log2" ∧
      ¬ Spares logging places (treeOf (besides "wyrmhole.log2" (.file [] false 10)))
        ("wyrmhole.log2", .file [] false 10)) ∧
    (¬ IsDailyName defaultName "wyrmhole.log.d" ∧
      ¬ Spares logging places (treeOf (besides "wyrmhole.log.d" (.directory [] 10)))
        ("wyrmhole.log.d", .directory [] 10)) := by
  intro logging
  have htouched {name : String} {node : Node} (hsound : (besides name node).Sound)
      (hnames : ∀ entry ∈ besides name node, '/' ∉ entry.1.toList)
      (htimes : ((listed (besides name node)).map Listed.modified).Nodup)
      (hreached : ⟨name, node.isDirectory, node.modified⟩ ∈ outdated logging (besides name node) ∧
        ∀ other ∈ outdated logging (besides name node), other.isDirectory = true →
          node.modified ≤ other.modified) :
      ¬ Spares logging places (treeOf (besides name node)) (name, node) := by
    intro hspares
    have hnot := (spares_iff logging hsound (list_treeOf _) hnames (List.mem_cons_self ..)).mp
      hspares
    exact hnot _ ((mem_reachedLogs_iff logging (distinctTimes_of_nodup htimes _)).mpr hreached) rfl
  have hfile : (besides "wyrmhole.log2" (.file [] false 10)).Sound :=
    sound_of_empty (by decide) (by decide) (by simp +contextual [besides])
  have hdirectory : (besides "wyrmhole.log.d" (.directory [] 10)).Sound :=
    sound_of_empty (by decide) (by decide) (by simp +contextual [besides])
  exact ⟨⟨by decide, htouched hfile (by decide) (by decide) (by decide)⟩,
    ⟨by decide, htouched hdirectory (by decide) (by decide) (by decide)⟩⟩

end Logs

end NativeMessaging
