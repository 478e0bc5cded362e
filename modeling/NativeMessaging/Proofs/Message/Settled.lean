import Mathlib.Data.List.Perm.Basic
import NativeMessaging.Proofs.Message.Delivery

/-!
# Message — what comes out for several messages

A table takes the chunks of several messages mixed up.  What it makes of the chunks of one id, it
makes of them alone; so messages with different ids never meet.  The chunks of messages with one id
go into one epoch, whatever the direction and the colony they are for.

* `Reassembler.settled_filter`: what comes out for an id, and what is held of it then, depend on
  the chunks of the id and on what was held of it.
* `settled_waiting`: nothing comes out for chunks of one count that leave out a place.
* `settled_alone`: each of the chunks that are alone comes out.
* `Parcel.settled_perm`: a message comes out for its chunks, in any order.
* `Parcel.exists_rejection`, `Parcel.exists_settled_eq_singleton`: two messages with one id, where
  the chunks of the second come behind the first chunk of the first.
-/

namespace NativeMessaging

namespace Reassembler

/-- What comes out of a table that is given chunks, one behind the other: the messages and the
rejections, each with the id of the chunk that it answers. -/
def settled (table : Reassembler) : List Chunk → List (MessageId × Answer)
  | []      => []
  | c :: cs =>
    let later := settled (table.accept c).2 cs
    if Answer.isWaiting (table.accept c).1 then later else (c.id, (table.accept c).1) :: later

/-- The table behind chunks. -/
def after (table : Reassembler) : List Chunk → Reassembler
  | []      => table
  | c :: cs => after (table.accept c).2 cs

section

variable {table table' : Reassembler} {c : Chunk}

theorem settled_cons_waiting (h : table.accept c = (.ok none, table')) (cs : List Chunk) :
    table.settled (c :: cs) = table'.settled cs := by
  rw [settled, h]
  rfl

theorem settled_cons_message {message : Message}
    (h : table.accept c = (.ok (some message), table')) (cs : List Chunk) :
    table.settled (c :: cs) = (c.id, .ok (some message)) :: table'.settled cs := by
  rw [settled, h]
  rfl

theorem settled_cons_rejection {r : Rejection} (h : table.accept c = (.error r, table'))
    (cs : List Chunk) : table.settled (c :: cs) = (c.id, .error r) :: table'.settled cs := by
  rw [settled, h]
  rfl

end

theorem settled_append (table : Reassembler) (cs ds : List Chunk) :
    table.settled (cs ++ ds) = table.settled cs ++ (table.after cs).settled ds := by
  induction cs generalizing table with
  | nil => rfl
  | cons c cs ih =>
      rw [List.cons_append, settled, settled, after, ih]
      split <;> rfl

theorem after_append (table : Reassembler) (cs ds : List Chunk) :
    table.after (cs ++ ds) = (table.after cs).after ds := by
  induction cs generalizing table with
  | nil => rfl
  | cons c cs ih => rw [List.cons_append, after, after, ih]

/-- **The chunks of an id are taken as if they came alone**, and leave of the id what they would
leave alone. -/
theorem settled_filter {table table' : Reassembler} {id : MessageId}
    (h : table.get? id = table'.get? id) (cs : List Chunk) :
    (table.settled cs).filter (·.1 = id) = table'.settled (cs.filter (·.id = id)) ∧
      (table.after cs).get? id = (table'.after (cs.filter (·.id = id))).get? id := by
  induction cs generalizing table table' with
  | nil => exact ⟨rfl, h⟩
  | cons c cs ih =>
      by_cases hid : c.id = id
      · subst hid
        obtain ⟨hanswer, hget⟩ := accept_congr h
        obtain ⟨hsettled, hafter⟩ := ih hget
        rw [settled, after, List.filter_cons_of_pos (by simp), settled, after, ← hanswer]
        refine ⟨?_, hafter⟩
        split
        · exact hsettled
        · rw [List.filter_cons_of_pos (by simp), hsettled]
      · obtain ⟨hsettled, hafter⟩ := ih ((get?_accept_of_ne _ _ (Ne.symm hid)).trans h)
        rw [settled, after, List.filter_cons_of_neg (by simpa using hid)]
        refine ⟨?_, hafter⟩
        split
        · exact hsettled
        · rw [List.filter_cons_of_neg (by simpa using hid), hsettled]

/-- Where all chunks have one id, only what is held of it matters. -/
theorem settled_congr {table table' : Reassembler} {id : MessageId}
    (h : table.get? id = table'.get? id) {cs : List Chunk} (hid : ∀ c ∈ cs, c.id = id) :
    table.settled cs = table'.settled cs := by
  have hall : cs.filter (·.id = id) = cs := List.filter_eq_self.mpr (by simpa using hid)
  have hself := settled_filter (rfl : table.get? id = table.get? id) cs
  have hother := settled_filter h cs
  rw [hall] at hself hother
  exact hself.1.symm.trans hother.1

end Reassembler

open Reassembler (settled after)

/-! ### Chunks of one count -/

theorem Covers.mono {cs ds : List Chunk} {count : UInt32} (h : Covers cs count) (hsub : cs ⊆ ds) :
    Covers ds count := fun n hn =>
  let ⟨c, hc, hseq⟩ := h n hn
  ⟨c, hsub hc, hseq⟩

/-- The chunks are of one message of `count` chunks, by what they say. -/
def Agree (id : MessageId) (count : UInt32) (cs : List Chunk) : Prop :=
  ∀ c ∈ cs, c.id = id ∧ c.count = count ∧ c.sequence ∈ places count

theorem Agree.mono {id : MessageId} {count : UInt32} {cs ds : List Chunk} (h : Agree id count ds)
    (hsub : cs ⊆ ds) : Agree id count cs := fun c hc => h c (hsub hc)

/-- A chunk of the declared count is answered by whether its epoch covers all places with it. -/
theorem answer_of_agree {id : MessageId} {count : UInt32} {epoch : List Chunk} {c : Chunk}
    (h : Agree id count (epoch ++ [c])) :
    (¬ Covers (epoch ++ [c]) count → answer epoch c = .ok none) ∧
      (Covers (epoch ++ [c]) count → ∃ m, answer epoch c = .ok (some m)) := by
  obtain ⟨-, hcount, hplace⟩ := h c (by simp)
  have hfirst : (epoch.headD c).count = count := by
    refine (h _ ?_).2.1
    cases epoch <;> simp
  rw [← hcount] at hplace
  rw [answer, if_neg (mem_places.mp hplace), hfirst, hcount, if_neg (not_not.mpr rfl)]
  exact ⟨fun hgap => if_neg hgap, fun hcovers => ⟨_, if_pos hcovers⟩⟩

/-- **Chunks that leave out a place are waited on**, and the table holds all of them. -/
theorem settled_waiting {id : MessageId} {count : UInt32} {epoch cs : List Chunk}
    (h : Agree id count (epoch ++ cs)) (hgap : ¬ Covers (epoch ++ cs) count) :
    settled (tableOf id epoch) cs = [] ∧ after (tableOf id epoch) cs = tableOf id (epoch ++ cs) := by
  induction cs generalizing epoch with
  | nil => exact ⟨rfl, by rw [List.append_nil]; rfl⟩
  | cons c cs ih =>
      rw [List.append_cons] at h hgap
      have hsub : epoch ++ [c] ⊆ epoch ++ [c] ++ cs := List.subset_append_left _ _
      obtain rfl : c.id = id := (h c (by simp)).1
      have hwaits : answer epoch c = .ok none :=
        (answer_of_agree (h.mono hsub)).1 fun hcovers => hgap (hcovers.mono hsub)
      have hstep : (tableOf c.id epoch).accept c = (.ok none, tableOf c.id (epoch ++ [c])) := by
        rw [accept_tableOf, hwaits]
        rfl
      rw [Reassembler.settled_cons_waiting hstep, after, hstep, List.append_cons epoch c cs]
      exact ih h hgap

/-- A chunk that completes its epoch is answered by a message, and the epoch starts again. -/
theorem exists_accept_of_covers {id : MessageId} {count : UInt32} {epoch : List Chunk} {c : Chunk}
    (h : Agree id count (epoch ++ [c])) (hcovers : Covers (epoch ++ [c]) count) :
    ∃ m, (tableOf id epoch).accept c = (.ok (some m), tableOf id []) := by
  obtain rfl : c.id = id := (h c (by simp)).1
  obtain ⟨m, hm⟩ := (answer_of_agree h).2 hcovers
  exact ⟨m, by rw [accept_tableOf, hm]; rfl⟩

/-- A chunk of another count than the first chunk of its epoch is rejected, and the epoch starts
again. -/
theorem accept_mismatch {epoch : List Chunk} {c : Chunk} (hplace : c.sequence ∈ places c.count)
    (hcount : (epoch.headD c).count ≠ c.count) :
    (tableOf c.id epoch).accept c =
      (.error (.sequenceSizeMismatch c.id (epoch.headD c).count c.count), tableOf c.id []) := by
  have hanswer : answer epoch c =
      .error (.sequenceSizeMismatch c.id (epoch.headD c).count c.count) := by
    rw [answer, if_neg (mem_places.mp hplace), if_pos hcount]
  rw [accept_tableOf, hanswer]
  rfl

/-- The message that a chunk is where it is the only one. -/
def Chunk.alone (c : Chunk) : Message := .ofCall c.direction c.colony c.id c.fragment

theorem accept_alone {c : Chunk} (hcount : c.count = 1) (hplace : c.sequence ∈ places 1) :
    (tableOf c.id []).accept c = (.ok (some c.alone), tableOf c.id []) := by
  let p : Parcel 1 := ⟨c.id, c.colony, c.direction, fun _ => c.fragment⟩
  have hchunk : p.chunk 0 = c := by
    have hone : c.sequence = 1 := Envelope.eq_one_of_mem_places hplace (by decide)
    obtain ⟨id, colony, direction, count, sequence, fragment⟩ := c
    obtain rfl : count = 1 := hcount
    obtain rfl : sequence = 1 := hone
    rfl
  have hmessage : p.message = c.alone := by simp [Parcel.message, p, Chunk.alone]
  have hstep := p.accept_chunk (by decide) [] 0
  rwa [if_pos (by decide), hchunk, hmessage] at hstep

/-- **Chunks that are alone** are answered by their own messages. -/
theorem settled_alone {id : MessageId} {cs : List Chunk} (h : Agree id 1 cs) :
    settled (tableOf id []) cs = cs.map (fun c => (id, .ok (some c.alone))) ∧
      after (tableOf id []) cs = tableOf id [] := by
  induction cs with
  | nil => exact ⟨rfl, rfl⟩
  | cons c cs ih =>
      obtain ⟨rfl, hcount, hplace⟩ := h c (by simp)
      obtain ⟨hsettled, hafter⟩ := ih (h.mono (List.subset_cons_self c cs))
      have hstep := accept_alone hcount hplace
      rw [Reassembler.settled_cons_message hstep, after, hstep]
      exact ⟨congrArg _ hsettled, hafter⟩

/-! ### The chunks of one message, and of two -/

namespace Parcel

variable {n m : Nat} (p : Parcel n)

/-- The chunks of a message in order. -/
def chunks : List Chunk := (List.finRange n).map p.chunk

theorem agree_chunks (hn : n < UInt32.size) : Agree p.id (UInt32.ofNat n) p.chunks := by
  intro c hc
  obtain ⟨i, -, rfl⟩ := List.mem_map.mp hc
  exact ⟨rfl, rfl, p.sequence_mem_places hn i⟩

/-- **The chunks of a message, in any order**: the message comes out, and then nothing is held. -/
theorem settled_perm (hn : n < UInt32.size) (hpos : 0 < n) {cs : List Chunk}
    (hcs : cs.Perm p.chunks) :
    settled (tableOf p.id []) cs = [(p.id, .ok (some p.message))] ∧
      after (tableOf p.id []) cs = tableOf p.id [] := by
  obtain ⟨order, rfl, horder⟩ :=
    (congrFun (congrFun (List.eq_map_comp_perm p.chunk) cs) (List.finRange n)).mpr hcs
  have hall : ∀ i, i ∈ order := fun i => horder.mem_iff.mpr (List.mem_finRange i)
  have hnodup : order.Nodup := horder.nodup_iff.mpr (List.nodup_finRange n)
  obtain rfl | ⟨init, i, rfl⟩ := order.eq_nil_or_concat
  · exact absurd (hall ⟨0, hpos⟩) List.not_mem_nil
  · -- all places but one leave out that one
    rw [List.concat_eq_append] at hall hnodup ⊢
    have hi : i ∉ init := fun hmem => (List.nodup_append.mp hnodup).2.2 i hmem i (by simp) rfl
    have hsub : [] ++ init.map p.chunk ⊆ p.chunks := by
      intro c hc
      obtain ⟨j, -, rfl⟩ := List.mem_map.mp hc
      exact List.mem_map.mpr ⟨j, List.mem_finRange j, rfl⟩
    have hgap : ¬ Covers ([] ++ init.map p.chunk) (UInt32.ofNat n) := fun hcovers =>
      hi (List.mem_toFinset.mp ((p.covers_iff hn init).mp hcovers ▸ Finset.mem_univ i))
    have hlast : insert i init.toFinset = Finset.univ := by
      rw [insert_toFinset, Finset.eq_univ_iff_forall]
      exact fun j => List.mem_toFinset.mpr (hall j)
    obtain ⟨hsettled, hafter⟩ := settled_waiting ((p.agree_chunks hn).mono hsub) hgap
    have hstep := p.accept_chunk hn init i
    rw [if_pos hlast] at hstep
    rw [List.map_append, Reassembler.settled_append, Reassembler.after_append, hsettled, hafter,
      List.nil_append, List.nil_append, List.map_singleton,
      Reassembler.settled_cons_message hstep, after, hstep]
    exact ⟨rfl, rfl⟩

/-- The chunks but the last. -/
def early (p : Parcel (n + 1)) : List Chunk := (List.finRange n).map fun i => p.chunk i.castSucc

/-- The chunks but the first. -/
def late (p : Parcel (n + 1)) : List Chunk := (List.finRange n).map fun i => p.chunk i.succ

theorem chunks_eq_concat (p : Parcel (n + 1)) :
    p.chunks = p.early ++ [p.chunk (Fin.last n)] := by
  rw [chunks, List.finRange_succ_last, List.map_append, List.map_map]
  rfl

theorem chunks_eq_cons (p : Parcel (n + 1)) : p.chunks = p.chunk 0 :: p.late := by
  rw [chunks, List.finRange_succ, List.map_cons, List.map_map]
  rfl

theorem covers_chunks (hn : n < UInt32.size) : Covers p.chunks (UInt32.ofNat n) :=
  (p.covers_iff hn (List.finRange n)).mpr (by ext; simp)

theorem not_covers (hn : n < UInt32.size) (i : Fin n) {cs : List Chunk}
    (h : ∀ c ∈ cs, c.sequence ≠ (p.chunk i).sequence) : ¬ Covers cs (UInt32.ofNat n) := fun hcovers =>
  let ⟨c, hc, hseq⟩ := hcovers _ (p.sequence_mem_places hn i)
  h c hc hseq

/-- Behind the first of several chunks, the first chunk of a message of the same id and another
length is rejected. -/
theorem exists_rejection (hn : n < UInt32.size) (htwo : 2 ≤ n) (q : Parcel m)
    (hm : m < UInt32.size) (hpos : 0 < m) (hid : q.id = p.id) (hne : n ≠ m) (cs : List Chunk) :
    ∃ r, (p.id, .error r) ∈
      settled (tableOf p.id []) (p.chunks.take 1 ++ (q.chunks ++ cs)) := by
  obtain ⟨k, rfl⟩ : ∃ k, n = k + 2 := ⟨n - 2, by omega⟩
  obtain ⟨l, rfl⟩ : ∃ l, m = l + 1 := ⟨m - 1, by omega⟩
  have hp := p.chunks_eq_cons
  have hgap : ¬ Covers ([] ++ [p.chunk 0]) (UInt32.ofNat (k + 2)) := by
    refine p.not_covers hn 1 fun c hc hseq => ?_
    obtain rfl := List.mem_singleton.mp hc
    exact absurd (p.chunk_inj hn hseq) Fin.zero_ne_one
  obtain ⟨hwaits, hafter⟩ :=
    settled_waiting ((p.agree_chunks hn).mono (by rw [hp]; simp)) hgap
  have hcounts : (p.chunk 0).count ≠ (q.chunk 0).count := fun h => hne <| by
    have htoNat := congrArg UInt32.toNat h
    rwa [p.count_chunk, q.count_chunk, UInt32.toNat_ofNat_of_lt' hn,
      UInt32.toNat_ofNat_of_lt' hm] at htoNat
  have hstep : (tableOf q.id [p.chunk 0]).accept (q.chunk 0) = _ :=
    accept_mismatch (q.sequence_mem_places hm 0) hcounts
  refine ⟨.sequenceSizeMismatch q.id (p.chunk 0).count (q.chunk 0).count, ?_⟩
  rw [hp, q.chunks_eq_cons, List.take_succ_cons, List.take_zero, Reassembler.settled_append, hwaits,
    hafter, List.nil_append, List.nil_append, List.cons_append, ← hid,
    Reassembler.settled_cons_rejection hstep]
  exact List.mem_cons_self

/-- Behind the first of several chunks, the chunks of a message of the same id and length make one
message with it; of the others none is then the first. -/
theorem exists_settled_eq_singleton (hn : n < UInt32.size) (htwo : 2 ≤ n) (q : Parcel m)
    (hid : q.id = p.id) (heq : n = m) :
    ∃ m, settled (tableOf p.id []) (p.chunks.take 1 ++ (q.chunks ++ p.chunks.drop 1)) =
      [(p.id, .ok (some m))] := by
  subst heq
  obtain ⟨k, rfl⟩ : ∃ k, n = k + 2 := ⟨n - 2, by omega⟩
  have hp := p.chunks_eq_cons
  have hq := q.chunks_eq_concat
  have hagree : Agree p.id (UInt32.ofNat (k + 2)) (p.chunks ++ q.chunks) :=
    List.forall_mem_append.mpr ⟨p.agree_chunks hn, hid ▸ q.agree_chunks hn⟩
  -- the last place comes with the last chunk of the second message alone
  have hfront : ¬ Covers ([] ++ p.chunk 0 :: q.early) (UInt32.ofNat (k + 2)) := by
    refine p.not_covers hn (Fin.last (k + 1)) fun c hc hseq => ?_
    rcases List.mem_cons.mp hc with rfl | hc
    · exact absurd (p.chunk_inj hn hseq) (Fin.last_pos.ne)
    · obtain ⟨i, -, rfl⟩ := List.mem_map.mp hc
      exact (Fin.castSucc_lt_last i).ne (q.chunk_inj hn hseq)
  have hfull : Covers (p.chunk 0 :: q.early ++ [q.chunk (Fin.last (k + 1))])
      (UInt32.ofNat (k + 2)) := by
    refine (q.covers_chunks hn).mono ?_
    rw [hq]
    exact List.subset_cons_self _ _
  -- and the first place does not come again
  have hback : ¬ Covers ([] ++ p.late) (UInt32.ofNat (k + 2)) := by
    refine p.not_covers hn 0 fun c hc hseq => ?_
    obtain ⟨i, -, rfl⟩ := List.mem_map.mp hc
    exact i.succ_ne_zero (p.chunk_inj hn hseq)
  have hfrontSub : [] ++ p.chunk 0 :: q.early ⊆ p.chunks ++ q.chunks := by
    intro c hc
    simp only [hp, hq, List.nil_append, List.mem_cons, List.mem_append] at hc ⊢
    tauto
  obtain ⟨hwaits, hafter⟩ := settled_waiting (hagree.mono hfrontSub) hfront
  obtain ⟨m, hm⟩ := exists_accept_of_covers (hagree.mono (by rw [hp, hq]; simp)) hfull
  obtain ⟨hwaits', -⟩ := settled_waiting (hagree.mono (by rw [hp]; simp)) hback
  have horder : p.chunks.take 1 ++ (q.chunks ++ p.chunks.drop 1) =
      (p.chunk 0 :: q.early) ++ q.chunk (Fin.last (k + 1)) :: p.late := by
    rw [hp, hq]
    simp
  rw [horder, Reassembler.settled_append, hwaits, hafter, List.nil_append, List.nil_append,
    Reassembler.settled_cons_message hm, hwaits', ← hid]
  exact ⟨m, rfl⟩

end Parcel

end NativeMessaging
