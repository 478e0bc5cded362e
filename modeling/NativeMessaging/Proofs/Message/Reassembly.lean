import Mathlib.Data.Set.Card
import Mathlib.Logic.Function.Basic
import NativeMessaging.Message.Reassembly
import NativeMessaging.Proofs.Basic

/-!
# Message — what a table holds, and what it answers

The fragments of a pending message are a list in ascending order of places.  Seen from outside
they are a function: the places of a message of `count` chunks are `1, …, count` (`places`), and a
pending message *holds* what a function from places to fragments gives (`holding`).  Putting a
fragment at its place is then an update of the function (`insert_holding`), the message is complete
when the function leaves no place out (`isComplete_holding`), and its text is the fragments joined
by place (`payload_holding`).

* `accept_eq`: the answer of a table to a chunk, and the table after it, by what the table holds of
  the chunk's message.
* `accept_cases`: what a table can do with a chunk.
* `exists_hold`: a chunk changes what the table holds of its message, and nothing else.
* `accept_congr`: what a table holds of the chunk's message decides what it answers.
* `get?_accept_of_ne`: a chunk changes nothing of the other messages.
* `size_eq_encard`: the size of a table that holds no message twice (`Distinct`) is the number of
  messages that it holds something of.
-/

namespace NativeMessaging

/-- The places of a message of `count` chunks, in order. -/
def places (count : UInt32) : List UInt32 :=
  (List.range count.toNat).map fun i => UInt32.ofNat (i + 1)

theorem toNat_place {i n : Nat} (hi : i < n) (hn : n < UInt32.size) :
    (UInt32.ofNat (i + 1)).toNat = i + 1 := by
  rw [UInt32.toNat_ofNat_of_lt' (by omega)]

theorem length_places (count : UInt32) : (places count).length = count.toNat := by
  simp [places]

theorem mem_places {n count : UInt32} : n ∈ places count ↔ ¬ (n = 0 ∨ count < n) := by
  have hcount := count.toNat_lt
  simp only [places, List.mem_map, List.mem_range, not_or, UInt32.not_lt]
  constructor
  · rintro ⟨i, hi, rfl⟩
    have hn := toNat_place hi hcount
    refine ⟨fun h => ?_, ?_⟩
    · rw [h] at hn; simp at hn
    · rw [UInt32.le_iff_toNat_le, hn]; omega
  · rintro ⟨h₀, h⟩
    have hn : n.toNat ≠ 0 := fun h => h₀ (UInt32.toNat_inj.mp h)
    rw [UInt32.le_iff_toNat_le] at h
    refine ⟨n.toNat - 1, by omega, ?_⟩
    rw [Nat.sub_add_cancel (by omega), UInt32.ofNat_toNat]

theorem pairwise_places (count : UInt32) : (places count).Pairwise (· < ·) := by
  rw [places, List.pairwise_map]
  refine List.pairwise_lt_range.imp_of_mem fun {i j} hi hj hij => ?_
  have hcount := count.toNat_lt
  rw [UInt32.lt_iff_toNat_lt, toNat_place (List.mem_range.mp hi) hcount,
    toNat_place (List.mem_range.mp hj) hcount]
  omega

namespace PendingMessage

variable {count : UInt32} {colony : ColonyId} {direction : Direction} {f : UInt32 → Option String}

/-! ### Fragments as a function of the place -/

/-- The fragments that `f` gives for places, in the order of the places. -/
def filled (ps : List UInt32) (f : UInt32 → Option String) : List (UInt32 × String) :=
  ps.filterMap fun n => (f n).map (n, ·)

theorem filled_cons (p : UInt32) (ps : List UInt32) (f : UInt32 → Option String) :
    filled (p :: ps) f = ((f p).map (p, ·)).toList ++ filled ps f := by
  cases h : f p <;> simp [filled, h]

theorem filled_congr {ps : List UInt32} {f g : UInt32 → Option String} (h : ∀ n ∈ ps, f n = g n) :
    filled ps f = filled ps g :=
  List.filterMap_congr fun n hn => by rw [h n hn]

/-- A place before all that are there comes first. -/
theorem insertFragment_of_lt {n : UInt32} {s : String} {fs : List (UInt32 × String)}
    (h : ∀ e ∈ fs, n < e.1) : insertFragment n s fs = (n, s) :: fs := by
  cases fs with
  | nil => rfl
  | cons e fs => rw [insertFragment, if_pos (h e (by simp))]

theorem lt_of_mem_filled {n : UInt32} {ps : List UInt32} (h : ∀ p ∈ ps, n < p) :
    ∀ e ∈ filled ps f, n < e.1 := by
  intro e he
  obtain ⟨p, hp, hpe⟩ := List.mem_filterMap.mp he
  obtain ⟨s, -, rfl⟩ := Option.map_eq_some_iff.mp hpe
  exact h p hp

/-- **Putting a fragment at its place updates the function.** -/
theorem insertFragment_filled {ps : List UInt32} (hps : ps.Pairwise (· < ·)) {n : UInt32}
    (hn : n ∈ ps) (s : String) (f : UInt32 → Option String) :
    insertFragment n s (filled ps f) = filled ps (Function.update f n (some s)) := by
  induction ps with
  | nil => cases hn
  | cons p ps ih =>
      obtain ⟨hp, hps⟩ := List.pairwise_cons.mp hps
      rw [filled_cons, filled_cons]
      by_cases e : n = p
      · -- the fragments behind are those of greater places, which the update leaves alone
        subst e
        have htail : filled ps (Function.update f n (some s)) = filled ps f :=
          filled_congr fun m hm => Function.update_of_ne (UInt32.ne_of_lt (hp m hm)).symm _ _
        rw [htail, Function.update_self]
        cases h : f n with
        | none => exact insertFragment_of_lt (lt_of_mem_filled hp)
        | some t => simp [insertFragment]
      · have hmem : n ∈ ps := (List.mem_cons.mp hn).resolve_left e
        have hlt := hp n hmem
        rw [Function.update_of_ne (Ne.symm e), ← ih hps hmem]
        cases h : f p with
        | none => rfl
        | some t => simp [insertFragment, UInt32.lt_asymm hlt, e]

/-- The pending message with that declaration that holds what `f` gives. -/
def holding (count : UInt32) (colony : ColonyId) (direction : Direction)
    (f : UInt32 → Option String) : PendingMessage :=
  ⟨count, colony, direction, filled (places count) f⟩

theorem ofChunk_eq_holding (c : Chunk) :
    ofChunk c = holding c.count c.colony c.direction fun _ => none := by
  simp [ofChunk, holding, filled]

theorem insert_holding {n : UInt32} (hn : n ∈ places count) (s : String) :
    (holding count colony direction f).insert n s =
      holding count colony direction (Function.update f n (some s)) := by
  rw [insert, holding, insertFragment_filled (pairwise_places count) hn, holding]

theorem isComplete_holding :
    (holding count colony direction f).isComplete = (places count).all fun n => (f n).isSome := by
  have hlt : (filled (places count) f).length < (places count).length ↔ _ :=
    List.length_filterMap_lt_length_iff_exists
  rw [length_places] at hlt
  rw [Bool.eq_iff_iff, isComplete, decide_eq_true_iff, ← Nat.not_lt]
  change ¬ (filled (places count) f).length < count.toNat ↔ _
  rw [hlt]
  simp [Option.isSome_iff_ne_none]

theorem join_filled (ps : List UInt32) (f : UInt32 → Option String) :
    String.join ((filled ps f).map Prod.snd) = String.join (ps.map fun n => (f n).getD "") := by
  induction ps with
  | nil => rfl
  | cons p ps ih =>
      rw [filled_cons, List.map_append, String.join_append, ih, List.map_cons, String.join_cons]
      cases f p <;> simp

theorem payload_holding :
    (holding count colony direction f).payload =
      String.join ((places count).map fun n => (f n).getD "") :=
  join_filled (places count) f

end PendingMessage

/-! ### The table -/

namespace Reassembler

theorem get?_erase (table : Reassembler) (id other : MessageId) :
    (table.erase id).get? other = if other = id then none else table.get? other :=
  lookup_filter_ne table.pending id other

theorem get?_insert (table : Reassembler) (id other : MessageId) (p : PendingMessage) :
    (table.insert id p).get? other = if other = id then some p else table.get? other := by
  have herase := get?_erase table id other
  rw [get?] at herase
  rw [get?, insert, List.lookup_cons, herase]
  by_cases h : other = id
  · subst h
    simp
  · rw [beq_false_of_ne h, if_neg h, if_neg h]

/-- **What a table answers.**  Where the table holds `f` of the chunk's message, or nothing of it
and the chunk itself declares it, a chunk in range and of the declared count completes the message
when no place is left out of the updated function, and is kept otherwise; every other chunk is
rejected, and the message forgotten. -/
theorem accept_eq {table : Reassembler} {c : Chunk} {count : UInt32} {colony : ColonyId}
    {direction : Direction} {f : UInt32 → Option String}
    (h : (table.get? c.id).getD (.ofChunk c) = .holding count colony direction f) :
    table.accept c =
      let g := Function.update f c.sequence (some c.fragment)
      if c.sequence = 0 ∨ c.count < c.sequence then
        (.error (.sequenceOutOfRange c.sequence c.count), table.erase c.id)
      else if count ≠ c.count then
        (.error (.sequenceSizeMismatch c.id count c.count), table.erase c.id)
      else if (places c.count).all fun n => (g n).isSome then
        (.ok (some (.ofCall direction colony c.id
          (String.join ((places c.count).map fun n => (g n).getD "")))), table.erase c.id)
      else (.ok none, table.insert c.id (.holding c.count colony direction g)) := by
  simp only [accept, h]
  split
  · rfl
  rename_i hrange
  change (if count ≠ c.count then _ else _) = _
  split
  · rfl
  rename_i hcount
  obtain rfl : count = c.count := not_not.mp hcount
  rw [PendingMessage.insert_holding (mem_places.mpr hrange)]
  rw [PendingMessage.isComplete_holding, PendingMessage.toMessage, PendingMessage.payload_holding]
  rfl

/-- The table where `p` is what it holds of a message. -/
def hold (table : Reassembler) (id : MessageId) : Option PendingMessage → Reassembler
  | none   => table.erase id
  | some p => table.insert id p

theorem get?_hold (table : Reassembler) (id other : MessageId) (p : Option PendingMessage) :
    (table.hold id p).get? other = if other = id then p else table.get? other := by
  cases p with
  | none => exact get?_erase table id other
  | some p => exact get?_insert table id other p

theorem hold_hold (table : Reassembler) (id : MessageId) (p q : Option PendingMessage) :
    (table.hold id p).hold id q = table.hold id q := by
  have herase : (table.hold id p).erase id = table.erase id := by
    cases p <;> simp [hold, erase, insert]
  cases q with
  | none => exact herase
  | some q => rw [hold, hold, insert, insert, herase]

/-- What a table does with a chunk: it rejects it or completes the message, and forgets the message
then; or it keeps what has come of the message. -/
theorem accept_cases (table : Reassembler) (c : Chunk) :
    (∃ r, table.accept c = (.error r, table.erase c.id)) ∨
      (∃ direction colony payload,
        table.accept c = (.ok (some (.ofCall direction colony c.id payload)), table.erase c.id)) ∨
      ∃ p, table.accept c = (.ok none, table.insert c.id p) := by
  unfold accept
  split
  · exact .inl ⟨_, rfl⟩
  · dsimp only
    split
    · exact .inl ⟨_, rfl⟩
    · split
      · exact .inr (.inl ⟨_, _, _, rfl⟩)
      · exact .inr (.inr ⟨_, rfl⟩)

/-- A chunk changes what the table holds of its message, and nothing else. -/
theorem exists_hold (table : Reassembler) (c : Chunk) :
    ∃ p, (table.accept c).2 = table.hold c.id p := by
  obtain ⟨r, h⟩ | ⟨_, _, _, h⟩ | ⟨p, h⟩ := table.accept_cases c
  · exact ⟨none, congrArg Prod.snd h⟩
  · exact ⟨none, congrArg Prod.snd h⟩
  · exact ⟨some p, congrArg Prod.snd h⟩

/-- **The message of a chunk decides.**  Tables that hold the same of it answer the same, and hold
the same of it afterwards. -/
theorem accept_congr {table table' : Reassembler} {c : Chunk}
    (h : table.get? c.id = table'.get? c.id) :
    (table.accept c).1 = (table'.accept c).1 ∧
      (table.accept c).2.get? c.id = (table'.accept c).2.get? c.id := by
  have herase : (table.erase c.id).get? c.id = (table'.erase c.id).get? c.id := by
    rw [get?_erase, get?_erase, if_pos rfl, if_pos rfl]
  unfold accept
  rw [h]
  dsimp only
  split
  · exact ⟨rfl, herase⟩
  split
  · exact ⟨rfl, herase⟩
  split
  · exact ⟨rfl, herase⟩
  · refine ⟨rfl, ?_⟩
    rw [get?_insert, get?_insert, if_pos rfl, if_pos rfl]

theorem get?_accept_of_ne (table : Reassembler) (c : Chunk) {id : MessageId} (h : id ≠ c.id) :
    (table.accept c).2.get? id = table.get? id := by
  obtain ⟨p, hp⟩ := exists_hold table c
  rw [hp, get?_hold, if_neg h]

/-- No message is held twice. -/
def Distinct (table : Reassembler) : Prop := (table.pending.map Prod.fst).Nodup

theorem distinct_empty : empty.Distinct := List.nodup_nil

theorem Distinct.erase {table : Reassembler} (h : table.Distinct) (id : MessageId) :
    (table.erase id).Distinct :=
  h.sublist (List.filter_sublist.map Prod.fst)

theorem Distinct.accept {table : Reassembler} (h : table.Distinct) (c : Chunk) :
    (table.accept c).2.Distinct := by
  obtain ⟨p, hp⟩ := exists_hold table c
  rw [hp]
  cases p with
  | none => exact h.erase c.id
  | some p =>
      refine List.nodup_cons.mpr ⟨fun hmem => ?_, h.erase c.id⟩
      obtain ⟨e, he, heq⟩ := List.mem_map.mp hmem
      exact absurd heq (by simpa using (List.mem_filter.mp he).2)

theorem mem_keys_iff (table : Reassembler) (id : MessageId) :
    id ∈ table.pending.map Prod.fst ↔ (table.get? id).isSome := by
  rw [get?]
  induction table.pending with
  | nil => simp
  | cons e es ih =>
      rw [List.map_cons, List.mem_cons, ih, List.lookup_cons]
      by_cases h : id = e.1
      · subst h; simp
      · rw [beq_false_of_ne h]; simp [h]

/-- The size of a table is the number of messages that it holds something of. -/
theorem size_eq_encard {table : Reassembler} (h : table.Distinct) :
    (table.size : ℕ∞) = {id | (table.get? id).isSome}.encard := by
  have hset : {id | (table.get? id).isSome} = ↑(table.pending.map Prod.fst).toFinset := by
    ext id
    simp only [Set.mem_ofPred_eq, List.coe_toFinset, mem_keys_iff]
  rw [hset, Set.encard_coe_eq_coe_finsetCard, List.toFinset_card_of_nodup h, List.length_map, size]

end Reassembler

end NativeMessaging
