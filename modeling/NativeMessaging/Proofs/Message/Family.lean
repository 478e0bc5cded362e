import NativeMessaging.Proofs.Message.Settled

/-!
# Message — families of messages

Texts are cut into chunks, each by a chunker of its own, and the chunks of all texts come mixed up.
Two texts *meet* where they have one id and not both are one chunk.

* `Sending.settled_of_apart`: where no two texts meet, every order of the chunks gives every text
  once, and nothing else.
* `Sending.settled_in_turn`: so do texts that come one behind the other, whether they meet or not.
* `Sending.exists_unsettled`: where two texts meet, an order of the chunks gives a rejection, or
  fewer messages than there are texts.
-/

namespace NativeMessaging

open Reassembler (settled after)

/-- A text to be sent, and the chunker that cuts it. -/
structure Sending where
  chunker : Chunker
  direction : Direction
  colony : ColonyId
  id : MessageId
  payload : String

namespace Sending

/-- The documents that carry the text. -/
def encode (s : Sending) : Except Frame.Error (List String) :=
  s.chunker.encode s.colony s.id s.direction s.payload

/-- The message that the text is to arrive as. -/
def message (s : Sending) : Message := .ofCall s.direction s.colony s.id s.payload

/-- How many chunks carry the text. -/
def pieces (s : Sending) : Nat := (s.chunker.split s.payload).length

/-- No two texts of a family meet: where two have one id, each is one chunk. -/
def Apart (family : List Sending) : Prop :=
  family.Pairwise fun s t => s.id = t.id → s.pieces = 1 ∧ t.pieces = 1

/-- The fragments of the text. -/
def parcel (s : Sending) : Parcel s.pieces :=
  ⟨s.id, s.colony, s.direction, fun i => (s.chunker.split s.payload).get ⟨i, i.isLt⟩⟩

/-- The chunks of the text, in order. -/
def chunks (s : Sending) : List Chunk := s.parcel.chunks

/-- What is to come out of a table for the text. -/
def outcome (s : Sending) : MessageId × Answer := (s.id, .ok (some s.message))

theorem message_parcel (s : Sending) : s.parcel.message = s.message := by
  have hfragments : List.ofFn s.parcel.fragment = s.chunker.split s.payload :=
    List.ext_getElem (by simp [pieces]) fun i h₁ h₂ => by simp [parcel]
  rw [Parcel.message, hfragments, Chunker.join_split]
  rfl

theorem pieces_pos (s : Sending) : 0 < s.pieces :=
  List.length_pos_iff.mpr (Chunker.split_ne_nil _ _)

theorem id_of_mem_chunks {s : Sending} {c : Chunk} (h : c ∈ s.chunks) : c.id = s.id := by
  obtain ⟨i, -, rfl⟩ := List.mem_map.mp h
  rfl

/-- The documents of a text are those of its chunks, where there are few enough of them. -/
theorem encode_eq_ok_iff {s : Sending} {docs : List String} :
    s.encode = .ok docs ↔ s.pieces < UInt32.size ∧ docs = s.chunks.map Chunk.document := by
  have hchunks : (s.chunker.split s.payload).mapIdx
      (Chunker.chunkAt s.colony s.id s.direction s.pieces) = s.chunks :=
    List.ext_getElem (by simp [chunks, Parcel.chunks, pieces])
      fun i h₁ h₂ => by simp [chunks, Parcel.chunks, parcel, Parcel.chunk]
  rw [encode, Chunker.encode, Chunker.chunks, pieces]
  split
  · next h =>
    rw [← hchunks]
    exact ⟨fun heq => ⟨h, (Except.ok.inj heq).symm⟩, fun heq => congrArg Except.ok heq.2.symm⟩
  · next h => exact ⟨fun heq => (by cases heq), fun heq => absurd heq.1 h⟩

/-- Where every text has documents, they are those of its chunks. -/
theorem of_mapM_encode {family : List Sending} {docs : List (List String)}
    (h : family.mapM encode = .ok docs) :
    (∀ s ∈ family, s.pieces < UInt32.size) ∧
      docs = family.map fun s => s.chunks.map Chunk.document := by
  induction family generalizing docs with
  | nil => exact ⟨List.forall_mem_nil _, (Except.ok.inj h).symm⟩
  | cons s family ih =>
      rw [List.mapM_cons] at h
      cases hfirst : s.encode with
      | error e => rw [hfirst] at h; cases h
      | ok first =>
          cases hmore : family.mapM encode with
          | error e => rw [hfirst, hmore] at h; cases h
          | ok more =>
              obtain ⟨hfew, rfl⟩ := ih hmore
              obtain ⟨hs, rfl⟩ := encode_eq_ok_iff.mp hfirst
              rw [hfirst, hmore] at h
              exact ⟨List.forall_mem_cons.mpr ⟨hs, hfew⟩, (Except.ok.inj h).symm⟩

/-! ### Texts of one chunk -/

theorem agree_chunks {s : Sending} (hfew : s.pieces < UInt32.size) :
    Agree s.id (UInt32.ofNat s.pieces) s.chunks := s.parcel.agree_chunks hfew

/-- The only chunk of a text is the text. -/
theorem map_alone_chunks {s : Sending} (hone : s.pieces = 1) :
    s.chunks.map (fun c => (s.id, Except.ok (some c.alone))) = [s.outcome] := by
  have hlen : s.chunks.length = 1 := by
    rw [chunks, Parcel.chunks, List.length_map, List.length_finRange, hone]
  obtain ⟨c, hc⟩ := List.length_eq_one_iff.mp hlen
  obtain ⟨i, -, rfl⟩ := List.mem_map.mp (hc ▸ List.mem_singleton_self c : c ∈ s.chunks)
  have hfragment : s.parcel.fragment i = s.payload := by
    obtain ⟨f, hf⟩ := List.length_eq_one_iff.mp hone
    have hjoin := s.chunker.join_split s.payload
    have hmem : s.parcel.fragment i ∈ s.chunker.split s.payload := List.get_mem _ i
    rw [hf] at hjoin hmem
    rw [List.mem_singleton.mp hmem, ← hjoin]
    simp
  rw [hc, List.map_singleton, outcome, message, ← hfragment]
  rfl

/-! ### Texts that do not meet -/

/-- Texts that have one id and do not meet. -/
theorem settled_of_apart_same {family : List Sending} {id : MessageId}
    (hid : ∀ s ∈ family, s.id = id) (hfew : ∀ s ∈ family, s.pieces < UInt32.size)
    (hapart : Apart family) {cs : List Chunk} (hcs : cs.Perm (family.flatMap chunks)) :
    (settled (tableOf id []) cs).Perm (family.map outcome) ∧
      after (tableOf id []) cs = tableOf id [] := by
  by_cases hones : ∀ s ∈ family, s.pieces = 1
  · have hagree : Agree id 1 cs := by
      intro c hc
      obtain ⟨s, hs, hcs⟩ := List.mem_flatMap.mp (hcs.mem_iff.mp hc)
      have hagree := agree_chunks (hfew s hs) c hcs
      rwa [hid s hs, hones s hs] at hagree
    obtain ⟨hsettled, hafter⟩ := settled_alone hagree
    refine ⟨?_, hafter⟩
    rw [hsettled]
    refine (hcs.map _).trans (.of_eq ?_)
    rw [List.map_flatMap, ← List.flatMap_singleton' (family.map outcome), List.flatMap_map]
    refine List.flatMap_congr fun s hs => ?_
    rw [← hid s hs]
    exact map_alone_chunks (hones s hs)
  · -- then the family is one text
    match family, hapart with
    | [], _ => exact absurd (List.forall_mem_nil _) hones
    | [s], _ =>
        obtain rfl := hid s (by simp)
        rw [List.flatMap_singleton] at hcs
        obtain ⟨hsettled, hafter⟩ := s.parcel.settled_perm (hfew s (by simp)) s.pieces_pos hcs
        rw [message_parcel] at hsettled
        exact ⟨.of_eq hsettled, hafter⟩
    | s :: t :: rest, hapart =>
        have hpair := (List.pairwise_cons.mp hapart).1
        refine absurd (fun u hu => ?_) hones
        have hsame : ∀ u ∈ t :: rest, s.id = u.id := fun u hu =>
          (hid s (by simp)).trans (hid u (List.mem_cons_of_mem s hu)).symm
        rcases List.mem_cons.mp hu with rfl | hu
        · exact (hpair t (by simp) (hsame t (by simp))).1
        · exact (hpair u hu (hsame u hu)).2

theorem filter_flatMap_chunks (family : List Sending) (id : MessageId) :
    (family.flatMap chunks).filter (·.id = id) =
      (family.filter (·.id = id)).flatMap chunks := by
  induction family with
  | nil => rfl
  | cons s family ih =>
      rw [List.flatMap_cons, List.filter_append, ih]
      by_cases h : s.id = id
      · rw [List.filter_cons_of_pos (by simpa using h), List.flatMap_cons, List.filter_eq_self.mpr]
        exact fun c hc => by simpa using (id_of_mem_chunks hc).trans h
      · rw [List.filter_cons_of_neg (by simpa using h), List.filter_eq_nil_iff.mpr, List.nil_append]
        exact fun c hc => by simpa [id_of_mem_chunks hc] using h

/-- Lists are permutations of each other where the entries of each id are. -/
theorem perm_of_filter {as bs : List (MessageId × Answer)}
    (h : ∀ id, (as.filter (·.1 = id)).Perm (bs.filter (·.1 = id))) : as.Perm bs := by
  classical
  refine List.perm_iff_count.mpr fun a => ?_
  have hcount := (h a.1).count_eq a
  rwa [List.count_filter (by simp), List.count_filter (by simp)] at hcount

/-- **Texts that do not meet all come out**, each once, in whichever order their chunks come; and
nothing is held of them then. -/
theorem settled_of_apart {family : List Sending} {table : Reassembler}
    (hfew : ∀ s ∈ family, s.pieces < UInt32.size) (hapart : Apart family)
    (hnone : ∀ s ∈ family, table.get? s.id = none) {cs : List Chunk}
    (hcs : cs.Perm (family.flatMap chunks)) :
    (table.settled cs).Perm (family.map outcome) ∧
      ∀ id, (table.after cs).get? id = table.get? id := by
  have hsame : ∀ id, ((table.settled cs).filter (·.1 = id)).Perm
      ((family.map outcome).filter (·.1 = id)) ∧ (table.after cs).get? id = table.get? id := by
    intro id
    have hfamily : (family.map outcome).filter (·.1 = id) =
        (family.filter (·.id = id)).map outcome := by
      rw [List.filter_map]
      rfl
    have hperm := hcs.filter (·.id = id)
    rw [filter_flatMap_chunks] at hperm
    rw [hfamily]
    by_cases hid : ∃ s ∈ family, s.id = id
    · obtain ⟨s, hs, rfl⟩ := hid
      have hempty : table.get? s.id = (tableOf s.id []).get? s.id := hnone s hs
      obtain ⟨hsettled, hafter⟩ := Reassembler.settled_filter hempty cs
      obtain ⟨hout, hrest⟩ := settled_of_apart_same
        (fun t ht => by simpa using List.of_mem_filter ht)
        (fun t ht => hfew t (List.mem_of_mem_filter ht)) (hapart.filter _) hperm
      rw [hsettled, hafter, hrest, hempty]
      exact ⟨hout, rfl⟩
    · have hnil : family.filter (·.id = id) = [] :=
        List.filter_eq_nil_iff.mpr fun s hs => by simpa using fun h => hid ⟨s, hs, h⟩
      rw [hnil] at hperm ⊢
      obtain ⟨hsettled, hafter⟩ :=
        Reassembler.settled_filter (rfl : table.get? id = table.get? id) cs
      rw [hperm.eq_nil] at hsettled hafter
      rw [hsettled, hafter]
      exact ⟨.refl _, rfl⟩
  exact ⟨perm_of_filter fun id => (hsame id).1, fun id => (hsame id).2⟩

/-- Texts that come one behind the other come out in turn. -/
theorem settled_in_turn {family : List Sending} {table : Reassembler}
    (hfew : ∀ s ∈ family, s.pieces < UInt32.size)
    (hnone : ∀ s ∈ family, table.get? s.id = none) :
    table.settled (family.flatMap chunks) = family.map outcome ∧
      ∀ id, (table.after (family.flatMap chunks)).get? id = table.get? id := by
  induction family generalizing table with
  | nil => exact ⟨rfl, fun _ => rfl⟩
  | cons s family ih =>
      obtain ⟨hfewHead, hfewTail⟩ := List.forall_mem_cons.mp hfew
      obtain ⟨hnoneHead, hnoneTail⟩ := List.forall_mem_cons.mp hnone
      have hfirst : s.chunks.Perm ([s].flatMap chunks) := .of_eq (List.flatMap_singleton ..).symm
      obtain ⟨hhead, hafter⟩ := settled_of_apart (List.forall_mem_singleton.mpr hfewHead)
        (List.pairwise_singleton _ s) (List.forall_mem_singleton.mpr hnoneHead) hfirst
      obtain ⟨htail, hrest⟩ := ih hfewTail fun t ht => (hafter t.id).trans (hnoneTail t ht)
      rw [List.flatMap_cons, Reassembler.settled_append, Reassembler.after_append, htail,
        List.perm_singleton.mp hhead]
      exact ⟨rfl, fun id => (hrest id).trans (hafter id)⟩

/-! ### Texts that meet -/

/-- The chunks of a text behind the first chunk of another. -/
def wedged (s t : Sending) : List Chunk := s.chunks.take 1 ++ (t.chunks ++ s.chunks.drop 1)

theorem perm_wedged (s t : Sending) : (wedged s t).Perm (s.chunks ++ t.chunks) := by
  have hswap : (t.chunks ++ s.chunks.drop 1).Perm (s.chunks.drop 1 ++ t.chunks) :=
    List.perm_append_comm
  refine (hswap.append_left (s.chunks.take 1)).trans (.of_eq ?_)
  rw [← List.append_assoc, List.take_append_drop]

theorem sublist_wedged (s t : Sending) :
    s.chunks.Sublist (wedged s t) ∧ t.chunks.Sublist (wedged s t) := by
  refine ⟨?_, (List.sublist_append_left _ _).trans (List.sublist_append_right _ _)⟩
  have hrest := (List.sublist_append_right t.chunks (s.chunks.drop 1)).append_left
    (s.chunks.take 1)
  rwa [List.take_append_drop] at hrest

/-- Of two texts that meet, wedging one into the other rejects a chunk or loses a message. -/
theorem settled_wedged {s t : Sending} (hs : s.pieces < UInt32.size) (ht : t.pieces < UInt32.size)
    (htwo : 2 ≤ s.pieces) (hid : t.id = s.id) {table : Reassembler}
    (hnone : table.get? s.id = none) :
    (∃ id r, (id, .error r) ∈ table.settled (wedged s t)) ∨
      (table.settled (wedged s t)).length = 1 := by
  have hids : ∀ c ∈ wedged s t, c.id = s.id := by
    intro c hc
    rcases List.mem_append.mp ((perm_wedged s t).mem_iff.mp hc) with hc | hc
    · exact id_of_mem_chunks hc
    · exact (id_of_mem_chunks hc).trans hid
  have hempty : table.get? s.id = (tableOf s.id []).get? s.id := hnone
  rw [Reassembler.settled_congr hempty hids]
  by_cases heq : s.pieces = t.pieces
  · obtain ⟨m, hm⟩ := s.parcel.exists_settled_eq_singleton hs htwo t.parcel hid heq
    exact .inr (congrArg List.length hm)
  · obtain ⟨r, hr⟩ := s.parcel.exists_rejection hs htwo t.parcel ht t.pieces_pos hid heq
      (s.chunks.drop 1)
    exact .inl ⟨s.id, r, hr⟩

/-- In a family that is not apart, two texts of one id meet, and the first is several chunks. -/
theorem exists_meeting {family : List Sending} (h : ¬ Apart family) :
    ∃ s t rest, family.Perm (rest ++ [s, t]) ∧ 2 ≤ s.pieces ∧ t.id = s.id := by
  obtain ⟨s, t, hsub, hmeet⟩ : ∃ s t, [s, t].Sublist family ∧
      ¬ (s.id = t.id → s.pieces = 1 ∧ t.pieces = 1) := by
    rw [Apart, List.pairwise_iff_forall_sublist] at h
    push Not at h
    obtain ⟨s, t, hsub, hid, hmeet⟩ := h
    exact ⟨s, t, hsub, fun hones => hmeet (hones hid).1 (hones hid).2⟩
  obtain ⟨rest, hrest⟩ := hsub.exists_perm_append
  obtain ⟨hid, hpieces⟩ := Classical.not_imp.mp hmeet
  have hs := s.pieces_pos
  have ht := t.pieces_pos
  have hpair : family.Perm (rest ++ [s, t]) := hrest.trans List.perm_append_comm
  by_cases htwo : 2 ≤ s.pieces
  · exact ⟨s, t, rest, hpair, htwo, hid.symm⟩
  · exact ⟨t, s, rest, hpair.trans ((List.Perm.swap t s []).append_left rest), by omega, hid⟩

/-- **Where two texts meet, an order of the chunks fails them**: a chunk is rejected, or fewer
messages come out than there are texts. -/
theorem exists_unsettled {family : List Sending} {table : Reassembler}
    (hfew : ∀ s ∈ family, s.pieces < UInt32.size) (hmeet : ¬ Apart family)
    (hnone : ∀ s ∈ family, table.get? s.id = none) :
    ∃ cs, cs.Perm (family.flatMap chunks) ∧ (∀ s ∈ family, s.chunks.Sublist cs) ∧
      ((∃ id r, (id, .error r) ∈ table.settled cs) ∨
        (table.settled cs).length < family.length) := by
  obtain ⟨s, t, rest, hfamily, htwo, hid⟩ := exists_meeting hmeet
  have hmem : ∀ u ∈ rest ++ [s, t], u ∈ family := fun u hu => hfamily.mem_iff.mpr hu
  have hrest : ∀ u ∈ rest, u ∈ family := fun u hu => hmem u (List.mem_append_left _ hu)
  have hs : s ∈ family := hmem s (by simp)
  have ht : t ∈ family := hmem t (by simp)
  obtain ⟨hturn, hafter⟩ := settled_in_turn (fun u hu => hfew u (hrest u hu))
    (fun u hu => hnone u (hrest u hu))
  have hwedged := settled_wedged (hfew s hs) (hfew t ht) htwo hid
    ((hafter s.id).trans (hnone s hs))
  refine ⟨rest.flatMap chunks ++ wedged s t, ?_, fun u hu => ?_, ?_⟩
  · have hpair : [s, t].flatMap chunks = s.chunks ++ t.chunks := by simp
    refine .trans ?_ (hfamily.symm.flatMap_right chunks)
    rw [List.flatMap_append, hpair]
    exact (perm_wedged s t).append_left _
  · rcases List.mem_append.mp (hfamily.mem_iff.mp hu) with hu | hu
    · exact (List.sublist_flatten_of_mem (List.mem_map_of_mem hu)).trans
        (List.sublist_append_left _ _)
    · refine .trans ?_ (List.sublist_append_right _ _)
      rcases List.mem_pair.mp hu with rfl | rfl
      · exact (sublist_wedged u t).1
      · exact (sublist_wedged s u).2
  · rw [Reassembler.settled_append, hturn, hfamily.length_eq]
    rcases hwedged with ⟨id, r, hr⟩ | hone
    · exact .inl ⟨id, r, List.mem_append_right _ hr⟩
    · right
      simp [hone]

end Sending

end NativeMessaging
