import Mathlib.Data.List.Nodup
import Mathlib.Data.List.TakeWhile
import NativeMessaging.Proofs.Files.Tree
import NativeMessaging.Settings.Load

/-!
# Files — Retention: which entries stay

An entry is *superseded* (`superseded`) when at least as many entries are newer as may stay.  Where
no two entries have the same time, these are the oldest ones, as many as there are too many
(`length_superseded`, `older_of_superseded`).

* `surplus_perm`: the entries that are too many are the superseded ones.
* `removal_of_files`, `removal_of_directory`: all of them can be removed where they are files; else
  the files that are older than the oldest directory among them, where the removal stops.
* `exists_clean`: what can be removed is removed, and nothing else.
* `Logs.isSound_prepare`, `Logs.prepare_keeps_newest`: what becomes of the directory of the logs.
-/

namespace NativeMessaging

namespace Files

namespace Retention

variable {stem : String} {keep : Nat} {ours : List Listed} {entry : Listed}

/-- How many entries are newer. -/
def newer (ours : List Listed) (entry : Listed) : Nat :=
  ours.countP fun other => decide (entry.modified < other.modified)

/-- The entries that at least `keep` others are newer than. -/
def superseded (keep : Nat) (ours : List Listed) : List Listed :=
  ours.filter fun entry => decide (keep ≤ newer ours entry)

/-- The files among entries that are older than one. -/
def filesBefore (stuck : Listed) (ours : List Listed) : List Listed :=
  ours.filter fun entry => !entry.isDirectory && decide (entry.modified < stuck.modified)

/-- Every entry is newer than those before it. -/
def Ascending (entries : List Listed) : Prop :=
  entries.Pairwise fun a b => a.modified < b.modified

/-! ### Superseded entries -/

theorem mem_superseded : entry ∈ superseded keep ours ↔ entry ∈ ours ∧ keep ≤ newer ours entry := by
  rw [superseded, List.mem_filter, decide_eq_true_iff]

theorem mem_filesBefore {stuck : Listed} :
    entry ∈ filesBefore stuck ours ↔
      entry ∈ ours ∧ entry.isDirectory = false ∧ entry.modified < stuck.modified := by
  rw [filesBefore, List.mem_filter, Bool.and_eq_true, Bool.not_eq_true', decide_eq_true_iff]

theorem superseded_perm {ours' : List Listed} (h : ours.Perm ours') :
    (superseded keep ours).Perm (superseded keep ours') := by
  have hnewer : newer ours = newer ours' := funext fun _ => h.countP_eq _
  rw [superseded, superseded, hnewer]
  exact h.filter _

/-- What is older than a superseded entry is superseded. -/
theorem superseded_of_le {other : Listed} (hentry : entry ∈ superseded keep ours)
    (hother : other ∈ ours) (hle : other.modified ≤ entry.modified) :
    other ∈ superseded keep ours := by
  refine mem_superseded.mpr ⟨hother, Nat.le_trans (mem_superseded.mp hentry).2 ?_⟩
  refine List.countP_mono_left fun newest _ hnewest => ?_
  exact decide_eq_true (Int.lt_of_le_of_lt hle (of_decide_eq_true hnewest))

/-- Superseded entries are older than the others. -/
theorem older_of_superseded {other : Listed} (hentry : entry ∈ superseded keep ours)
    (hother : other ∈ ours) (hstays : other ∉ superseded keep ours) :
    entry.modified < other.modified :=
  Int.not_le.mp fun hle => hstays (superseded_of_le hentry hother hle)

/-- **In the order of their times**, the superseded entries are the first ones. -/
theorem take_eq_superseded (h : Ascending ours) :
    ours.take (ours.length - keep) = superseded keep ours := by
  induction ours with
  | nil => exact List.take_nil
  | cons first ours ih =>
      obtain ⟨hfirst, hours⟩ := List.pairwise_cons.mp h
      -- all the others are newer than the first entry, and it is newer than none of them
      have hall : newer (first :: ours) first = ours.length := by
        rw [newer, List.countP_cons_of_neg (by simp)]
        exact List.countP_eq_length.mpr fun other hother => decide_eq_true (hfirst other hother)
      have hsame : ∀ other ∈ ours, newer (first :: ours) other = newer ours other := by
        intro other hother
        have hlt := hfirst other hother
        exact List.countP_cons_of_neg (by simpa using Int.le_of_lt hlt)
      have hrest : ours.filter (fun other => decide (keep ≤ newer (first :: ours) other)) =
          superseded keep ours :=
        List.filter_congr fun other hother => by rw [hsame other hother]
      rw [superseded, List.filter_cons, hall, hrest, ← ih hours, List.length_cons]
      by_cases hkeep : keep ≤ ours.length
      · rw [if_pos (decide_eq_true hkeep), Nat.sub_add_comm hkeep, List.take_succ_cons]
      · have hnone : ours.length + 1 - keep = 0 := by omega
        have hnone' : ours.length - keep = 0 := by omega
        rw [if_neg (by simpa using hkeep), hnone, hnone', List.take_zero, List.take_zero]

/-! ### What is too many -/

section Surplus

variable {entries : List Listed}

theorem oldestFirst_perm : (oldestFirst stem entries).Perm (entries.filter (matchesStem stem)) :=
  List.mergeSort_perm _ _

/-- The entries that retention looks at differ in their times. -/
def DistinctTimes (stem : String) (entries : List Listed) : Prop :=
  ((entries.filter (matchesStem stem)).map Listed.modified).Nodup

theorem ascending_oldestFirst (htimes : DistinctTimes stem entries) :
    Ascending (oldestFirst stem entries) := by
  have htrans (a b c : Listed) (hab : decide (a.modified ≤ b.modified) = true)
      (hbc : decide (b.modified ≤ c.modified) = true) : decide (a.modified ≤ c.modified) = true :=
    decide_eq_true (Int.le_trans (of_decide_eq_true hab) (of_decide_eq_true hbc))
  have htotal (a b : Listed) :
      (decide (a.modified ≤ b.modified) || decide (b.modified ≤ a.modified)) = true := by
    simpa using Int.le_total a.modified b.modified
  have hsorted := List.pairwise_mergeSort htrans htotal (entries.filter (matchesStem stem))
  have hdistinct : (oldestFirst stem entries).Pairwise fun a b => a.modified ≠ b.modified :=
    List.pairwise_map.mp ((oldestFirst_perm.map Listed.modified).nodup_iff.mpr htimes)
  exact hsorted.imp₂ (fun _ _ hle hne => Int.lt_iff_le_and_ne.mpr ⟨of_decide_eq_true hle, hne⟩)
    hdistinct

theorem surplus_sublist : (surplus stem keep entries).Sublist (oldestFirst stem entries) :=
  List.take_sublist _ _

/-- **The entries that are too many are the superseded ones.** -/
theorem surplus_perm (keep : Nat) (htimes : DistinctTimes stem entries) :
    (surplus stem keep entries).Perm
      (superseded (max keep 1) (entries.filter (matchesStem stem))) := by
  have hours := ascending_oldestFirst htimes
  have hsurplus : surplus stem keep entries = superseded (max keep 1) (oldestFirst stem entries) :=
    take_eq_superseded hours
  rw [hsurplus]
  exact superseded_perm oldestFirst_perm

theorem length_superseded (htimes : DistinctTimes stem entries) :
    (superseded (max keep 1) (entries.filter (matchesStem stem))).length =
      (entries.filter (matchesStem stem)).length - max keep 1 := by
  rw [← (surplus_perm keep htimes).length_eq, surplus, List.length_take, oldestFirst_perm.length_eq]
  exact Nat.min_eq_left (Nat.sub_le ..)

/-! ### What can be removed -/

theorem removal_of_files {surplus : List Listed}
    (h : ∀ entry ∈ surplus, entry.isDirectory = false) :
    removal surplus = (surplus.map Listed.name, none) := by
  have hall : ∀ entry ∈ surplus, (!entry.isDirectory) = true := fun entry hentry => by
    rw [h entry hentry]
    rfl
  rw [removal, List.takeWhile_eq_self_iff.mpr hall, List.dropWhile_eq_nil_iff.mpr hall]
  rfl

/-- **The removal stops at the oldest directory**, behind all the files that are older. -/
theorem removal_of_directory {surplus : List Listed} {stuck : Listed} (h : Ascending surplus)
    (hstuck : stuck ∈ surplus) (hdirectory : stuck.isDirectory = true)
    (holdest : ∀ entry ∈ surplus, entry.isDirectory = true → stuck.modified ≤ entry.modified) :
    removal surplus = ((filesBefore stuck surplus).map Listed.name, some stuck) := by
  obtain ⟨files, behind, rfl⟩ := List.append_of_mem hstuck
  obtain ⟨-, hbehind, hbefore⟩ := List.pairwise_append.mp h
  have holder : ∀ entry ∈ files, entry.modified < stuck.modified := fun entry hentry =>
    hbefore entry hentry stuck (List.mem_cons_self ..)
  have hfiles : ∀ entry ∈ files, (!entry.isDirectory) = true := by
    intro entry hentry
    cases hentryDirectory : entry.isDirectory with
    | false => rfl
    | true  =>
        have hle := holdest entry (List.mem_append_left _ hentry) hentryDirectory
        exact absurd (holder entry hentry) (Int.not_lt.mpr hle)
  have hsame : filesBefore stuck (files ++ stuck :: behind) = files := by
    rw [filesBefore, List.filter_append, List.filter_cons_of_neg (by simp [hdirectory]),
      List.filter_eq_self.mpr, List.filter_eq_nil_iff.mpr, List.append_nil]
    · intro entry hentry hlt
      have hnewer := (List.pairwise_cons.mp hbehind).1 entry hentry
      rw [Bool.and_eq_true, decide_eq_true_iff] at hlt
      exact Int.lt_asymm hnewer hlt.2
    · intro entry hentry
      rw [Bool.and_eq_true, decide_eq_true_iff]
      exact ⟨hfiles entry hentry, holder entry hentry⟩
  rw [hsame, removal, List.takeWhile_append_of_pos hfiles, List.dropWhile_append_of_pos hfiles,
    List.takeWhile_cons_of_neg (by simp [hdirectory]),
    List.dropWhile_cons_of_neg (by simp [hdirectory]), List.append_nil]
  rfl

end Surplus

/-! ### The removal -/

section Clean

variable {tree tree' : Tree} {path : Path} {entries : Entries}

theorem names_listed : (listed entries).map Listed.name = entries.map Prod.fst := by
  rw [listed, List.map_map]
  rfl

theorem exists_file_of_listed (h : entry ∈ listed entries) (hfile : entry.isDirectory = false) :
    ∃ bytes executable t, (entry.name, Node.file bytes executable t) ∈ entries := by
  obtain ⟨⟨name, node⟩, hmem, rfl⟩ := List.mem_map.mp h
  cases node with
  | file bytes executable t => exact ⟨bytes, executable, t, hmem⟩
  | directory => cases hfile

/-- **What can be removed is removed, and nothing else.** -/
theorem exists_clean {files : List Listed} {stuck : Option Listed} (hsound : entries.Sound)
    (hlist : tree.list path = .ok entries)
    (hremoval : removal (surplus stem keep (listed entries)) = (files.map Listed.name, stuck))
    (hsub : files.Sublist (surplus stem keep (listed entries)))
    (hfiles : ∀ entry ∈ files, entry.isDirectory = false) :
    ∃ tree', clean tree path stem keep = .ok (stuck.map Listed.name, tree') ∧
      tree.Sheds path (files.map Listed.name) tree' := by
  have hsub := hsub.trans surplus_sublist
  have hnodup : (files.map Listed.name).Nodup := by
    refine .sublist (hsub.map _) ((oldestFirst_perm.map _).nodup_iff.mpr ?_)
    exact .sublist (List.filter_sublist.map _) (names_listed ▸ hsound.nodup)
  have hmem : ∀ entry ∈ files, entry ∈ listed entries := fun entry hentry =>
    List.filter_sublist.subset (oldestFirst_perm.subset (hsub.subset hentry))
  obtain ⟨tree', hremove, hsheds⟩ := Tree.exists_sheds hlist hsound hnodup fun name hname => by
    obtain ⟨entry, hentry, rfl⟩ := List.mem_map.mp hname
    exact exists_file_of_listed (hmem entry hentry) (hfiles entry hentry)
  refine ⟨tree', ?_, hsheds⟩
  refine bind_eq_ok_iff.mpr ⟨entries, hlist, ?_⟩
  rw [hremoval]
  exact bind_eq_ok_iff.mpr ⟨tree', hremove, rfl⟩

/-- Retention does nothing to a tree but to remove files. -/
theorem becomes_of_clean {start : Tree} {stuck : Option String} (h : start.Becomes tree)
    (hclean : clean tree path stem keep = .ok (stuck, tree')) : start.Becomes tree' := by
  obtain ⟨entries, -, hrest⟩ := bind_eq_ok_iff.mp hclean
  obtain ⟨tree₁, hremove, heq⟩ := bind_eq_ok_iff.mp hrest
  obtain ⟨-, rfl⟩ := Prod.mk.inj (Except.ok.inj heq)
  exact h.removeFiles hremove

/-- Where no more is there than may stay, nothing changes. -/
theorem clean_of_length_le (hlist : tree.list path = .ok entries)
    (hfew : ((listed entries).filter (matchesStem stem)).length ≤ max keep 1) :
    clean tree path stem keep = .ok (none, tree) := by
  have hnone : surplus stem keep (listed entries) = [] := by
    rw [surplus, oldestFirst_perm.length_eq, Nat.sub_eq_zero_of_le hfew]
    exact List.take_zero
  refine bind_eq_ok_iff.mpr ⟨entries, hlist, ?_⟩
  rw [hnone]
  rfl

end Clean

end Retention

end Files

namespace Logs

open Files (Tree Entries Listed Node)
open Files.Retention

variable {logging : Settings.Logging} {dirs : Directories} {tree tree' : Tree} {entries : Entries}

/-- The entries whose names start with the name of the log. -/
def logs (logging : Settings.Logging) (entries : Entries) : List Listed :=
  (listed entries).filter (matchesStem (logging.fileName.getD defaultName))

/-- The logs that at least as many others are newer than as may stay. -/
def outdated (logging : Settings.Logging) (entries : Entries) : List Listed :=
  superseded (max logging.maxFiles 1) (logs logging entries)

theorem prepare_of_clean {stuck : Option String} (hlist : tree.list dirs.log = .ok entries)
    (hclean : clean tree dirs.log (logging.fileName.getD defaultName) logging.maxFiles =
      .ok (stuck, tree')) :
    prepare logging dirs tree =
      (stuck.elim (.ok ()) fun name => .error (.cleanup (dirs.log.join name) .isDirectory),
        tree') := by
  rw [prepare, Tree.makeDirectories_of_list hlist]
  dsimp only
  rw [hclean]
  cases stuck <;> rfl

/-- Sound trees stay sound. -/
theorem isSound_prepare (hsound : tree.IsSound) : (prepare logging dirs tree).2.IsSound := by
  rw [prepare]
  cases hmake : tree.makeDirectories dirs.log with
  | error e => exact hsound
  | ok made =>
      have hmade : tree.Becomes made := Tree.Becomes.refl.makeWay hmake
      dsimp only
      cases hclean : clean made dirs.log (logging.fileName.getD defaultName) logging.maxFiles with
      | error e => exact hmade.isSound hsound
      | ok done =>
          obtain ⟨stuck, cleaned⟩ := done
          have hcleaned := (becomes_of_clean hmade hclean).isSound hsound
          cases stuck <;> exact hcleaned

theorem distinctTimes_of_nodup (h : ((listed entries).map Listed.modified).Nodup)
    (stem : String) : DistinctTimes stem (listed entries) :=
  h.sublist (List.filter_sublist.map _)

/-- Where all the outdated logs are files, they are removed. -/
theorem prepare_of_files (hsound : entries.Sound) (hlist : tree.list dirs.log = .ok entries)
    (htimes : DistinctTimes (logging.fileName.getD defaultName) (listed entries))
    (hfiles : ∀ old ∈ outdated logging entries, old.isDirectory = false) :
    ∃ tree', prepare logging dirs tree = (.ok (), tree') ∧
      tree.Sheds dirs.log ((outdated logging entries).map Listed.name) tree' := by
  have hperm := surplus_perm logging.maxFiles htimes
  have hfiles' := fun entry hentry => hfiles entry (hperm.subset hentry)
  obtain ⟨tree', hclean, hsheds⟩ :=
    exists_clean hsound hlist (removal_of_files hfiles') (List.Sublist.refl _) hfiles'
  exact ⟨tree', prepare_of_clean hlist hclean, hsheds.congr fun _ => (hperm.map _).mem_iff⟩

/-- Where there are directories among the outdated logs, the files that are older than the oldest
of them are removed. -/
theorem prepare_of_directory (hsound : entries.Sound) (hlist : tree.list dirs.log = .ok entries)
    (htimes : DistinctTimes (logging.fileName.getD defaultName) (listed entries)) {stuck : Listed}
    (hstuck : stuck ∈ outdated logging entries) (hdirectory : stuck.isDirectory = true)
    (holdest : ∀ old ∈ outdated logging entries, old.isDirectory = true →
      stuck.modified ≤ old.modified) :
    ∃ tree', prepare logging dirs tree =
        (.error (.cleanup (dirs.log.join stuck.name) .isDirectory), tree') ∧
      tree.Sheds dirs.log ((filesBefore stuck (logs logging entries)).map Listed.name) tree' := by
  have hperm := surplus_perm logging.maxFiles htimes
  have hascending : Ascending
      (surplus (logging.fileName.getD defaultName) logging.maxFiles (listed entries)) :=
    (ascending_oldestFirst htimes).sublist surplus_sublist
  have hremoval := removal_of_directory hascending (hperm.mem_iff.mpr hstuck) hdirectory
    fun entry hentry => holdest entry (hperm.subset hentry)
  obtain ⟨tree', hclean, hsheds⟩ := exists_clean hsound hlist hremoval List.filter_sublist
    fun entry hentry => (mem_filesBefore.mp hentry).2.1
  refine ⟨tree', prepare_of_clean hlist hclean, hsheds.congr fun name => ?_⟩
  -- logs that are older than an outdated one are outdated, and so are among those too many
  have hsame (entry : Listed) : entry ∈ filesBefore stuck
        (surplus (logging.fileName.getD defaultName) logging.maxFiles (listed entries)) ↔
      entry ∈ filesBefore stuck (logs logging entries) := by
    rw [mem_filesBefore, mem_filesBefore]
    refine and_congr_left fun holder => ⟨fun hentry => ?_, fun hentry => ?_⟩
    · exact (mem_superseded.mp (hperm.subset hentry)).1
    · exact hperm.mem_iff.mpr (superseded_of_le hstuck hentry (Int.le_of_lt holder.2))
  simp only [List.mem_map, hsame]

/-- **The newest logs stay.**  Where no two entries of the directory have the same time, the
outdated logs are the oldest ones, as many as there are too many.  If there are none too many,
nothing changes.  If all the outdated logs are files, these are removed and nothing else is.  If
there are directories among them, the oldest of these is reported, and of the logs the files that
are older than it are removed and nothing else is. -/
theorem prepare_keeps_newest (logging : Settings.Logging) {dirs : Directories} {tree : Tree}
    {entries : Entries} (hsound : tree.IsSound) (hlist : tree.list dirs.log = .ok entries)
    (htimes : ((listed entries).map Listed.modified).Nodup) :
    ((outdated logging entries).length =
        (logs logging entries).length - max logging.maxFiles 1 ∧
      ∀ old ∈ outdated logging entries, ∀ other ∈ logs logging entries,
        other ∉ outdated logging entries → old.modified < other.modified) ∧
    ((logs logging entries).length ≤ max logging.maxFiles 1 →
      prepare logging dirs tree = (.ok (), tree)) ∧
    ((∀ old ∈ outdated logging entries, old.isDirectory = false) →
      ∃ tree', prepare logging dirs tree = (.ok (), tree') ∧
        tree.Sheds dirs.log ((outdated logging entries).map Listed.name) tree') ∧
    ∀ stuck ∈ outdated logging entries, stuck.isDirectory = true →
      (∀ old ∈ outdated logging entries, old.isDirectory = true →
        stuck.modified ≤ old.modified) →
      ∃ tree', prepare logging dirs tree =
          (.error (.cleanup (dirs.log.join stuck.name) .isDirectory), tree') ∧
        tree.Sheds dirs.log
          ((filesBefore stuck (logs logging entries)).map Listed.name) tree' := by
  have hentries := hsound.of_leads (Tree.list_eq_ok_iff.mp hlist).2
  have htimes := distinctTimes_of_nodup htimes (logging.fileName.getD defaultName)
  refine ⟨⟨length_superseded htimes, fun old hold other hother => ?_⟩, fun hfew => ?_, ?_, ?_⟩
  · exact older_of_superseded hold hother
  · exact prepare_of_clean hlist (clean_of_length_le hlist hfew)
  · exact prepare_of_files hentries hlist htimes
  · exact fun stuck => prepare_of_directory hentries hlist htimes

/-- What is in a directory of logs: three of them, a directory with such a name, and a file that is
no log. -/
def littered : Entries :=
  [("host.log.3", .file [51] false 130), ("host.log.1", .file [49] false 110),
    ("notes", .file [] false 100), ("host.log.d", .directory [] 120),
    ("host.log", .file [48] false 140)]

/-- One log of four is too many, and is removed.  Where one may stay, three are too many; the oldest
of them is removed, and the directory is the next. -/
theorem prepare_keeps_newest_littered :
    let tree : Tree := ⟨[("logs", .directory littered 0)], [], 0⟩
    let dirs : Directories := ⟨⟨"/config"⟩, ⟨"/data"⟩, ⟨"/logs"⟩⟩
    (tree.IsSound ∧ tree.list dirs.log = .ok littered ∧
      ((listed littered).map Listed.modified).Nodup) ∧
    prepare ⟨.info, 4, false, some "host.log"⟩ dirs tree = (.ok (), tree) ∧
    (∃ tree', prepare ⟨.info, 3, false, some "host.log"⟩ dirs tree = (.ok (), tree') ∧
      tree.Sheds dirs.log ["host.log.1"] tree') ∧
    ∃ tree', prepare ⟨.info, 0, false, some "host.log"⟩ dirs tree =
        (.error (.cleanup ⟨"/logs/host.log.d"⟩ .isDirectory), tree') ∧
      tree.Sheds dirs.log ["host.log.1"] tree' := by
  intro tree dirs
  have hsound : tree.IsSound := by
    refine .singleton (.intro (by decide) (by decide) fun name inner t hmem => ?_) (by decide)
    simp only [littered, List.mem_cons, Prod.mk.injEq, List.not_mem_nil, or_false, reduceCtorEq,
      and_false, false_or, Node.directory.injEq] at hmem
    obtain ⟨-, rfl, -⟩ := hmem
    exact .nil
  have hway : dirs.log.resolve [] = ["logs"] := by decide
  have hlist : tree.list dirs.log = .ok littered := by
    refine Tree.list_eq_ok_iff.mpr ⟨by decide, ?_⟩
    rw [hway]
    exact .inside (by decide) rfl (.here littered)
  have htimes : ((listed littered).map Listed.modified).Nodup := by decide
  obtain ⟨-, hfew, -, -⟩ :=
    prepare_keeps_newest ⟨.info, 4, false, some "host.log"⟩ hsound hlist htimes
  obtain ⟨-, -, hfiles, -⟩ :=
    prepare_keeps_newest ⟨.info, 3, false, some "host.log"⟩ hsound hlist htimes
  obtain ⟨-, -, -, hstuck⟩ :=
    prepare_keeps_newest ⟨.info, 0, false, some "host.log"⟩ hsound hlist htimes
  obtain ⟨tree', hprepare, hsheds⟩ := hstuck ⟨"host.log.d", true, 120⟩ (by decide) rfl (by decide)
  have hpath : dirs.log.join "host.log.d" = ⟨"/logs/host.log.d"⟩ := by decide
  refine ⟨⟨hsound, hlist, htimes⟩, hfew (by decide), hfiles (by decide), tree', ?_, hsheds⟩
  rw [← hpath]
  exact hprepare

end Logs

end NativeMessaging
