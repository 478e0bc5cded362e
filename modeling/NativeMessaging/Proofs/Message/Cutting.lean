import NativeMessaging.Proofs.Message.Chunker

/-!
# Message — no cutting has fewer pieces

Fragments are *greedy* (`Greedy`) when each keeps to the limit and the one behind it starts with a
character for which there was no room.

* `greedy_split`: the fragments of a text are greedy.
* `Greedy.length_le`: pieces that keep to the limit are no fewer than greedy fragments of the same
  text, or of one that it ends with.
* `Greedy.length_eq`: where every multiple of the limit falls between two characters, all fragments
  but the last are full.
* `split_minimal`: what the fragments of a text owe to the text and to the limit.
-/

namespace NativeMessaging.Chunker

open String (utf8Len)

/-- Fragments that take as many characters as there is room for; none is empty. -/
inductive Greedy (limit : Nat) : List (List Char) → Prop where
  | last {fragment : List Char} : fragment ≠ [] → Keeps limit fragment → Greedy limit [fragment]
  | more {fragment next : List Char} {c : Char} {rest : List (List Char)} :
      fragment ≠ [] → Keeps limit fragment → limit < utf8Len fragment + c.utf8Size →
        Greedy limit ((c :: next) :: rest) → Greedy limit (fragment :: (c :: next) :: rest)

/-- Characters can be parted behind that many bytes. -/
def Parts (cs : List Char) (n : Nat) : Prop :=
  ∃ ahead behind, cs = ahead ++ behind ∧ utf8Len ahead = n

/-! ### The fragments of a text -/

/-- The fragment under way goes on, and greedy fragments follow it. -/
theorem exists_greedy_cut (limit : Nat) (done : List String) {fragment : List Char}
    (hne : fragment ≠ []) (hkeeps : Keeps limit fragment) (cs : List Char) :
    ∃ more rest, Greedy limit ((fragment.reverse ++ more) :: rest) ∧
      cut limit done fragment (utf8Len fragment) cs =
        done.reverse ++ ((fragment.reverse ++ more) :: rest).map String.ofList := by
  have hreverse {fragment : List Char} (h : Keeps limit fragment) :
      Keeps limit fragment.reverse := by
    rwa [Keeps, String.utf8Len_reverse, List.length_reverse]
  induction cs generalizing done fragment with
  | nil =>
      refine ⟨[], [], ?_, by simp [cut]⟩
      rw [List.append_nil]
      exact .last (List.reverse_ne_nil_iff.mpr hne) (hreverse hkeeps)
  | cons c cs ih =>
      have hone : utf8Len [c] = c.utf8Size := Nat.zero_add _
      rw [cut]
      split
      · next hfull =>
        -- the fragment ends here, and the next one starts with the character that did not fit
        obtain ⟨more, rest, hgreedy, hcut⟩ :=
          ih (String.ofList fragment.reverse :: done) (List.cons_ne_nil c []) (.inr rfl)
        refine ⟨[], (c :: more) :: rest, ?_, by rw [← hone, hcut]; simp⟩
        rw [List.append_nil]
        refine .more (List.reverse_ne_nil_iff.mpr hne) (hreverse hkeeps) ?_ hgreedy
        rw [String.utf8Len_reverse]
        exact hfull.2
      · next hroom =>
        have hfits : utf8Len fragment + c.utf8Size ≤ limit :=
          Nat.le_of_not_lt fun hlt => hroom ⟨hne, hlt⟩
        rw [← String.utf8Len_cons] at hfits ⊢
        obtain ⟨more, rest, hgreedy, hcut⟩ := ih done (List.cons_ne_nil c fragment) (.inl hfits)
        rw [List.reverse_cons, List.append_assoc] at hgreedy hcut
        exact ⟨[c] ++ more, rest, hgreedy, hcut⟩

/-- **The fragments of a text are greedy.** -/
theorem greedy_split {chunker : Chunker} {payload : String} (h : payload ≠ "") :
    Greedy chunker.limit ((chunker.split payload).map String.toList) := by
  obtain ⟨c, cs, hcs⟩ := List.exists_cons_of_ne_nil (mt String.toList_eq_nil_iff.mp h)
  obtain ⟨more, rest, hgreedy, hcut⟩ :=
    exists_greedy_cut chunker.limit [] (List.cons_ne_nil c []) (.inr rfl) cs
  have hsplit : chunker.split payload = ((c :: more) :: rest).map String.ofList := by
    -- the first character never ends a fragment
    rw [split, hcs, cut, if_neg (by simp)]
    exact hcut
  have hlists : (chunker.split payload).map String.toList = (c :: more) :: rest := by
    rw [hsplit, List.map_map]
    exact (List.map_congr_left fun _ _ => String.toList_ofList).trans (List.map_id _)
  rw [hlists]
  exact hgreedy

/-- The characters of texts are those of the texts joined. -/
theorem flatten_toList (pieces : List String) :
    (pieces.map String.toList).flatten = (String.join pieces).toList := by
  rw [String.toList_join, List.flatMap_def]

/-- An empty text is one empty fragment. -/
theorem split_empty (chunker : Chunker) : chunker.split "" = [""] := split_of_le (Nat.zero_le _)

/-! ### What greedy fragments are -/

namespace Greedy

variable {limit : Nat} {fragments : List (List Char)}

theorem ne_nil (h : Greedy limit fragments) : [] ∉ fragments := by
  induction h with
  | last hne _ => simpa using hne.symm
  | more hne _ _ _ ih => exact List.not_mem_cons_of_ne_of_not_mem hne.symm ih

/-- There was no room for the first character of the next fragment. -/
theorem isChain (h : Greedy limit fragments) :
    fragments.IsChain fun fragment next =>
      ∃ c ∈ next.head?, limit < utf8Len fragment + c.utf8Size := by
  induction h with
  | last _ _ => exact .singleton _
  | more _ _ hfull _ ih => exact .cons_cons ⟨_, rfl, hfull⟩ ih

/-- **No pieces are fewer**: a piece that started no earlier than a fragment ends no later. -/
theorem length_le (h : Greedy limit fragments) {pieces : List (List Char)}
    (hpieces : ∀ piece ∈ pieces, Keeps limit piece) {ahead : List Char}
    (hjoin : pieces.flatten = ahead ++ fragments.flatten) : fragments.length ≤ pieces.length := by
  -- `ahead` is what the pieces so far left of the fragments so far
  induction h generalizing pieces ahead with
  | last hne _ =>
      refine List.length_pos_iff.mpr fun hnil => hne ?_
      subst hnil
      exact (List.append_eq_nil_iff.mp (by simpa using hjoin.symm)).2
  | @more fragment next c rest hne _ hfull _ ih =>
      cases pieces with
      | nil => simp at hjoin
      | cons piece pieces =>
          obtain ⟨hpiece, hpieces⟩ := List.forall_mem_cons.mp hpieces
          rw [List.flatten_cons, List.flatten_cons, ← List.append_assoc] at hjoin
          refine Nat.succ_le_succ ?_
          rcases List.append_eq_append_iff.mp hjoin with
            ⟨behind, -, hrest⟩ | ⟨excess, hexcess, hrest⟩
          · exact ih hpieces hrest
          · cases excess with
            | nil => exact ih hpieces (hrest.symm.trans (List.nil_append _).symm)
            | cons d excess =>
              -- the piece would hold the fragment and the character that did not fit
              obtain rfl : c = d := (List.cons.inj hrest).1
              have hlength := List.length_pos_iff.mpr hne
              subst hexcess
              rcases hpiece with hle | hone
              · simp only [String.utf8Len_append, String.utf8Len_cons] at hle
                omega
              · simp only [List.length_append, List.length_cons] at hone
                omega

end Greedy

/-! ### Full fragments -/

theorem parts_zero (cs : List Char) : Parts cs 0 := ⟨[], cs, rfl, rfl⟩

/-- Behind characters of a size, what is parted is parted by that much less. -/
theorem Parts.of_append {front behind : List Char} {n : Nat}
    (h : Parts (front ++ behind) (utf8Len front + n)) : Parts behind n := by
  obtain ⟨ahead, rest, hcs, hsize⟩ := h
  rcases List.append_eq_append_iff.mp hcs with ⟨middle, rfl, rfl⟩ | ⟨middle, rfl, rfl⟩
  · rw [String.utf8Len_append] at hsize
    exact ⟨middle, rest, rfl, by omega⟩
  · rw [String.utf8Len_append] at hsize
    obtain rfl : n = 0 := by omega
    exact parts_zero _

/-- Where the characters can be parted at the limit, a fragment at their front is not wider. -/
theorem Keeps.le_of_parts {limit : Nat} (hpos : 0 < limit) {fragment behind : List Char}
    (h : Keeps limit fragment)
    (hparts : limit < utf8Len (fragment ++ behind) → Parts (fragment ++ behind) limit) :
    utf8Len fragment ≤ limit := by
  rcases h with hle | hone
  · exact hle
  · obtain ⟨c, rfl⟩ := List.length_eq_one_iff.mp hone
    refine Nat.le_of_not_lt fun hwide => ?_
    obtain ⟨ahead, rest, hcs, hsize⟩ := hparts (by rw [String.utf8Len_append]; omega)
    -- nothing that starts with the character is as small as the limit, and nothing is too small
    cases ahead with
    | nil => exact hpos.ne hsize
    | cons d ahead =>
        obtain rfl : c = d := (List.cons.inj hcs).1
        rw [String.utf8Len_cons] at hsize hwide
        rw [String.utf8Len_nil] at hwide
        omega

namespace Greedy

variable {limit : Nat} {fragments : List (List Char)}

/-- Where the characters can be parted at the limit, a fragment with another behind it is full. -/
theorem utf8Len_eq {fragment next behind : List Char} {c : Char}
    (hle : utf8Len fragment ≤ limit) (hfull : limit < utf8Len fragment + c.utf8Size)
    (hparts : Parts (fragment ++ (c :: next ++ behind)) limit) : utf8Len fragment = limit := by
  obtain ⟨ahead, rest, hcs, hsize⟩ := hparts
  rcases List.append_eq_append_iff.mp hcs with ⟨middle, rfl, hrest⟩ | ⟨middle, rfl, -⟩
  · cases middle with
    | nil => simpa using hsize
    | cons d middle =>
        obtain rfl : c = d := (List.cons.inj hrest).1
        simp only [String.utf8Len_append, String.utf8Len_cons] at hsize
        omega
  · rw [String.utf8Len_append] at hle ⊢
    omega

/-- **All fragments but the last are full**, where every multiple of the limit falls between two
characters. -/
theorem length_eq (h : Greedy limit fragments) (hpos : 0 < limit)
    (hparts : ∀ k, k * limit < utf8Len fragments.flatten → Parts fragments.flatten (k * limit)) :
    fragments.length = (utf8Len fragments.flatten + limit - 1) / limit := by
  induction h with
  | @last fragment hne hkeeps =>
      rw [List.flatten_singleton] at hparts ⊢
      have hsize : 0 < utf8Len fragment := Nat.pos_of_ne_zero (mt String.utf8Len_eq_zero.mp hne)
      have hone (hlt : limit < utf8Len (fragment ++ [])) : Parts (fragment ++ []) limit := by
        rw [List.append_nil] at hlt ⊢
        simpa using hparts 1 (by simpa using hlt)
      have hle : utf8Len fragment ≤ limit := hkeeps.le_of_parts hpos hone
      rw [List.length_singleton]
      exact (Nat.div_eq_of_lt_le (by omega) (by omega)).symm
  | @more fragment next c rest hne hkeeps hfull hgreedy ih =>
      rw [List.flatten_cons] at hparts ⊢
      set behind := ((c :: next) :: rest).flatten with hbehind
      have hone (hlt : limit < utf8Len (fragment ++ behind)) :
          Parts (fragment ++ behind) limit := by
        simpa using hparts 1 (by simpa using hlt)
      have hlong : limit < utf8Len (fragment ++ behind) := by
        simp only [hbehind, List.flatten_cons, List.cons_append, String.utf8Len_append,
          String.utf8Len_cons]
        omega
      have hlimit : utf8Len fragment = limit :=
        utf8Len_eq (hkeeps.le_of_parts hpos hone) hfull (hone hlong)
      have hrest : ((c :: next) :: rest).length = (utf8Len behind + limit - 1) / limit := by
        refine ih fun k hk => ?_
        have hnext : utf8Len fragment + k * limit = (k + 1) * limit := by
          rw [hlimit, Nat.succ_mul, Nat.add_comm]
        have hparted : Parts (fragment ++ behind) (utf8Len fragment + k * limit) := by
          rw [hnext]
          refine hparts (k + 1) ?_
          rw [String.utf8Len_append, ← hnext]
          omega
        exact hparted.of_append
      have hsum : utf8Len (fragment ++ behind) + limit - 1 =
          limit + (utf8Len behind + limit - 1) := by
        rw [String.utf8Len_append, hlimit]
        omega
      rw [List.length_cons, hrest, hsum, Nat.add_div_left _ hpos]

end Greedy

/-! ### What splitting owes to the text and to the limit -/

/-- Characters that are parted at a position of a text. -/
theorem parts_of_isValid {s : String} {n : Nat} (h : String.Pos.Raw.IsValid s ⟨n⟩) :
    Parts s.toList n := by
  obtain ⟨ahead, behind, rfl, hsize⟩ := String.Pos.Raw.isValid_iff_exists_append.mp h
  refine ⟨ahead.toList, behind.toList, String.toList_append .., ?_⟩
  rw [String.utf8Len_toList]
  exact (congrArg String.Pos.Raw.byteIdx hsize).symm

/-- Characters of one byte can be parted anywhere. -/
theorem parts_of_ascii {cs : List Char} (h : ∀ c ∈ cs, c.toNat < 128) {n : Nat}
    (hn : n ≤ utf8Len cs) : Parts cs n := by
  induction cs generalizing n with
  | nil =>
      obtain rfl : n = 0 := Nat.le_zero.mp hn
      exact parts_zero _
  | cons c cs ih =>
      cases n with
      | zero => exact parts_zero _
      | succ n =>
          obtain ⟨hc, hcs⟩ := List.forall_mem_cons.mp h
          have hone : c.utf8Size = 1 :=
            Char.utf8Size_eq_one_iff.mpr (UInt32.le_iff_toNat_le.mpr (Nat.le_of_lt_succ hc))
          rw [String.utf8Len_cons, hone] at hn
          obtain ⟨ahead, behind, rfl, rfl⟩ := ih hcs (Nat.le_of_succ_le_succ hn)
          exact ⟨c :: ahead, behind, rfl, by rw [String.utf8Len_cons, hone]⟩

/-- **Splitting loses nothing, keeps to the limit, takes all there is room for, and makes no more
fragments than any other cutting**: joined, the fragments are the text; only an empty text has an
empty fragment; a fragment is within the limit, or one character that is wider; for the first
character of the next fragment there was no room; pieces within the limit, or of one character, that
join to the text are no fewer; and where every multiple of the limit falls between two characters,
as it does between characters of one byte, the limit goes into the bytes as often as there are
fragments, the last one not full. -/
theorem split_minimal (chunker : Chunker) (payload : String) :
    String.join (chunker.split payload) = payload ∧
      (payload = "" → chunker.split payload = [""]) ∧
      (payload ≠ "" → "" ∉ chunker.split payload) ∧
      (∀ fragment ∈ chunker.split payload, fragment.utf8ByteSize ≤ chunker.limit ∨
        chunker.limit < fragment.utf8ByteSize ∧ fragment.length = 1) ∧
      ((chunker.split payload).IsChain fun fragment next =>
        ∃ c ∈ next.toList.head?, chunker.limit < (fragment.push c).utf8ByteSize) ∧
      (∀ pieces, pieces ≠ [] → String.join pieces = payload →
        (∀ piece ∈ pieces, piece.utf8ByteSize ≤ chunker.limit ∨ piece.length = 1) →
          (chunker.split payload).length ≤ pieces.length) ∧
      (payload ≠ "" →
        (∀ k, k * chunker.limit < payload.utf8ByteSize →
            String.Pos.Raw.IsValid payload ⟨k * chunker.limit⟩) ∨
          (∀ c ∈ payload.toList, c.toNat < 128) →
        (chunker.split payload).length =
          (payload.utf8ByteSize + chunker.limit - 1) / chunker.limit) := by
  have hflatten : ((chunker.split payload).map String.toList).flatten = payload.toList := by
    rw [flatten_toList, join_split]
  refine ⟨join_split chunker payload, ?_, ?_, ?_, ?_, ?_, ?_⟩
  · rintro rfl
    exact split_empty chunker
  · intro hne hempty
    exact (greedy_split hne).ne_nil (List.mem_map_of_mem hempty)
  · intro fragment hmem
    have hkeeps := keeps_of_mem_split hmem
    rw [Keeps, String.utf8Len_toList, String.length_toList] at hkeeps
    omega
  · by_cases hne : payload = ""
    · subst hne
      rw [split_empty]
      exact .singleton _
    · refine ((List.isChain_map _).mp (greedy_split hne).isChain).imp fun fragment next hnext => ?_
      simpa only [String.utf8ByteSize_push, String.utf8Len_toList] using hnext
  · intro pieces hpieces hjoin hkeeps
    by_cases hne : payload = ""
    · subst hne
      rw [split_empty]
      exact List.length_pos_iff.mpr hpieces
    · have hlists : ∀ piece ∈ pieces.map String.toList, Keeps chunker.limit piece := by
        refine List.forall_mem_map.mpr fun piece hmem => ?_
        rw [Keeps, String.utf8Len_toList, String.length_toList]
        exact hkeeps piece hmem
      have hjoined : (pieces.map String.toList).flatten =
          [] ++ ((chunker.split payload).map String.toList).flatten := by
        rw [flatten_toList, hjoin, hflatten, List.nil_append]
      have hlength := (greedy_split hne).length_le hlists hjoined
      rwa [List.length_map, List.length_map] at hlength
  · intro hne hparts
    have hlength := (greedy_split hne).length_eq chunker.limit_pos fun k hk => by
      rw [hflatten] at hk ⊢
      rcases hparts with hvalid | hascii
      · rw [String.utf8Len_toList] at hk
        exact parts_of_isValid (hvalid k hk)
      · exact parts_of_ascii hascii hk.le
    rwa [List.length_map, hflatten, String.utf8Len_toList] at hlength

/-- Characters of one, two and three bytes under a limit of four: three pieces that keep to it are
more than the fragments are, and of six characters of one byte there are two fragments. -/
theorem split_minimal_mixed :
    let chunker : Chunker := .ofLimit 4
    let payload := String.ofList ['a', 'é', '✓', 'b']
    let pieces := [String.ofList ['a'], String.ofList ['é'], String.ofList ['✓', 'b']]
    payload ≠ "" ∧ "" ∉ chunker.split payload ∧
      (pieces ≠ [] ∧ String.join pieces = payload ∧
        ∀ piece ∈ pieces, piece.utf8ByteSize ≤ chunker.limit ∨ piece.length = 1) ∧
      (chunker.split payload).length ≤ pieces.length ∧
      (∀ c ∈ "native".toList, c.toNat < 128) ∧ (chunker.split "native").length = 2 := by
  intro chunker payload pieces
  have hne : payload ≠ "" := by decide
  have hjoin : String.join pieces = payload := by decide
  have hkeeps : ∀ piece ∈ pieces, piece.utf8ByteSize ≤ chunker.limit ∨ piece.length = 1 := by
    decide
  have hall : "native".toList.all (fun c => decide (c.toNat < 128)) = true := by decide
  have hascii : ∀ c ∈ "native".toList, c.toNat < 128 := fun c hc =>
    of_decide_eq_true (List.all_eq_true.mp hall c hc)
  obtain ⟨-, -, hempty, -, -, hfewest, -⟩ := split_minimal chunker payload
  obtain ⟨-, -, -, -, -, -, hfull⟩ := split_minimal chunker "native"
  have hceil : ("native".utf8ByteSize + chunker.limit - 1) / chunker.limit = 2 := by decide
  exact ⟨hne, hempty hne, ⟨List.cons_ne_nil _ _, hjoin, hkeeps⟩,
    hfewest pieces (List.cons_ne_nil _ _) hjoin hkeeps, hascii,
    (hfull (by decide) (.inr hascii)).trans hceil⟩

end NativeMessaging.Chunker
