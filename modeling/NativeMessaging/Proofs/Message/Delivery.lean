import NativeMessaging.Proofs.Message.Chunker
import NativeMessaging.Proofs.Message.History

/-!
# Message — the documents of a text, delivered in any order

The documents of a text come to an empty table in any order, any number of times.  What has to
happen depends on the documents that came since the last whole message alone (`awaited`): the
message comes out with the one that makes them all, and then nothing is held; before, the table
holds one message.

* `Parcel.answer_chunk`: the chunks of a message are answered so, by the indices in the epoch.
* `Parcel.deliver_documents`: a table that holds an epoch of them answers every further order so.
* `deliver_encode`: the documents that a chunker writes, from the empty table.
-/

namespace NativeMessaging

/-- The answers to the chunks that texts carry, each with the size of the table after it; there are
none where one of the texts carries no chunk. -/
def deliver (table : Reassembler) : List String → Option (List (Answer × Nat))
  | []            => some []
  | text :: texts =>
    match Envelope.parse text with
    | .ok (.chunk c) =>
      (deliver (table.accept c).2 texts).map
        (((table.accept c).1, (table.accept c).2.size) :: ·)
    | _ => none

/-- What has to be answered to documents that come in an order, where those of `since` have come
since the last whole message. -/
def awaited {n : Nat} (message : Message) (since : Finset (Fin n)) :
    List (Fin n) → List (Answer × Nat)
  | []         => []
  | i :: order =>
    if insert i since = Finset.univ then (.ok (some message), 0) :: awaited message ∅ order
    else (.ok none, 1) :: awaited message (insert i since) order

/-! ### The table that holds one epoch -/

/-- The table that holds the epoch of one id and nothing else. -/
def tableOf (id : MessageId) (epoch : List Chunk) : Reassembler :=
  Reassembler.empty.hold id (pendingOf epoch)

theorem accept_tableOf (epoch : List Chunk) (c : Chunk) :
    (tableOf c.id epoch).accept c =
      (answer epoch c,
        tableOf c.id (if (answer epoch c).isWaiting then epoch ++ [c] else [])) := by
  have hget : (tableOf c.id epoch).get? c.id = pendingOf epoch := by
    rw [tableOf, Reassembler.get?_hold, if_pos rfl]
  rw [accept_eq_answer hget, tableOf, Reassembler.hold_hold, tableOf]
  split <;> rfl

theorem size_tableOf (id : MessageId) (epoch : List Chunk) :
    (tableOf id epoch).size = if epoch = [] then 0 else 1 := by
  cases epoch <;> rfl

/-! ### The chunks of one message -/

theorem insert_toFinset {n : Nat} (i : Fin n) (since : List (Fin n)) :
    insert i since.toFinset = (since ++ [i]).toFinset := by
  ext j
  simp

/-- A message whose text is cut into `n` fragments. -/
structure Parcel (n : Nat) where
  id : MessageId
  colony : ColonyId
  direction : Direction
  fragment : Fin n → String

namespace Parcel

variable {n : Nat} (p : Parcel n)

/-- The chunk of the fragment at an index. -/
def chunk (i : Fin n) : Chunk :=
  Chunker.chunkAt p.colony p.id p.direction n i (p.fragment i)

/-- The whole message. -/
def message : Message := .ofCall p.direction p.colony p.id (String.join (List.ofFn p.fragment))

theorem count_chunk (i : Fin n) : (p.chunk i).count = UInt32.ofNat n := rfl

theorem places_eq (hn : n < UInt32.size) :
    places (UInt32.ofNat n) = List.ofFn fun i => (p.chunk i).sequence := by
  refine List.ext_getElem ?_ fun i h₁ h₂ => ?_
  · rw [length_places, UInt32.toNat_ofNat_of_lt' hn, List.length_ofFn]
  · simp [places, chunk, Chunker.chunkAt]

theorem sequence_mem_places (hn : n < UInt32.size) (i : Fin n) :
    (p.chunk i).sequence ∈ places (p.chunk i).count := by
  rw [p.count_chunk, p.places_eq hn]
  exact List.mem_ofFn.mpr ⟨i, rfl⟩

theorem chunk_inj (hn : n < UInt32.size) {i j : Fin n}
    (h : (p.chunk i).sequence = (p.chunk j).sequence) : i = j := by
  have hi := toNat_place i.isLt hn
  have hj := toNat_place j.isLt hn
  have hij : UInt32.ofNat (i + 1) = UInt32.ofNat (j + 1) := h
  rw [hij, hj] at hi
  omega

/-- Every place has its chunk where every index is there. -/
theorem covers_iff (hn : n < UInt32.size) (since : List (Fin n)) :
    Covers (since.map p.chunk) (UInt32.ofNat n) ↔ since.toFinset = Finset.univ := by
  rw [Covers, p.places_eq hn, Finset.eq_univ_iff_forall]
  simp only [List.mem_ofFn, forall_exists_index, forall_apply_eq_imp_iff, List.mem_map,
    exists_exists_and_eq_and, List.mem_toFinset]
  refine forall_congr' fun i => ⟨?_, fun hi => ⟨i, hi, rfl⟩⟩
  rintro ⟨j, hj, hij⟩
  exact p.chunk_inj hn hij ▸ hj

/-- The fragment at a place is that of its index, however often it came. -/
theorem lastFragment_chunk (hn : n < UInt32.size) {since : List (Fin n)} {i : Fin n}
    (hi : i ∈ since) :
    lastFragment (since.map p.chunk) (p.chunk i).sequence = some (p.fragment i) := by
  induction since using List.reverseRecOn with
  | nil => cases hi
  | append_singleton since j ih =>
      rw [List.map_append, List.map_singleton, lastFragment_concat]
      by_cases hij : i = j
      · subst hij
        rw [Function.update_self]
        rfl
      · have hmem : i ∈ since := by simpa [hij] using hi
        rw [Function.update_of_ne fun h => hij (p.chunk_inj hn h), ih hmem]

/-- The chunk at the head of an epoch declares what every chunk declares. -/
theorem headD_chunk (since : List (Fin n)) (i : Fin n) :
    ∃ j, (since.map p.chunk).headD (p.chunk i) = p.chunk j := by
  cases since with
  | nil => exact ⟨i, rfl⟩
  | cons j since => exact ⟨j, rfl⟩

/-- With every index there, the last fragments by place are the fragments in order. -/
theorem map_lastFragment (hn : n < UInt32.size) {since : List (Fin n)}
    (h : since.toFinset = Finset.univ) :
    ((places (UInt32.ofNat n)).map fun m => (lastFragment (since.map p.chunk) m).getD "") =
      List.ofFn p.fragment := by
  rw [p.places_eq hn, List.map_ofFn]
  congr 1
  funext i
  have hi : i ∈ since := List.mem_toFinset.mp (h ▸ Finset.mem_univ i)
  rw [Function.comp_apply, p.lastFragment_chunk hn hi, Option.getD_some]

/-- **One chunk.**  It is answered by the message where it makes the indices of the epoch all of
them, and is waited on otherwise. -/
theorem answer_chunk (hn : n < UInt32.size) (since : List (Fin n)) (i : Fin n) :
    answer (since.map p.chunk) (p.chunk i) =
      if insert i since.toFinset = Finset.univ then .ok (some p.message) else .ok none := by
  have hplace := p.sequence_mem_places hn i
  have hsnoc : since.map p.chunk ++ [p.chunk i] = (since ++ [i]).map p.chunk := by simp
  obtain ⟨j, hj⟩ := p.headD_chunk since i
  rw [answer, if_neg (mem_places.mp hplace), hj, hsnoc, p.count_chunk, p.count_chunk,
    if_neg (not_not.mpr rfl), insert_toFinset]
  by_cases hall : (since ++ [i]).toFinset = Finset.univ
  · rw [if_pos ((p.covers_iff hn _).mpr hall), if_pos hall, p.map_lastFragment hn hall]
    rfl
  · rw [if_neg (mt (p.covers_iff hn _).mp hall), if_neg hall]

/-- The table after a chunk: empty behind the message, and one epoch longer before. -/
theorem accept_chunk (hn : n < UInt32.size) (since : List (Fin n)) (i : Fin n) :
    (tableOf p.id (since.map p.chunk)).accept (p.chunk i) =
      if insert i since.toFinset = Finset.univ then (.ok (some p.message), tableOf p.id [])
      else (.ok none, tableOf p.id ((since ++ [i]).map p.chunk)) := by
  have hstep := accept_tableOf (since.map p.chunk) (p.chunk i)
  rw [p.answer_chunk hn] at hstep
  refine hstep.trans ?_
  split
  · rfl
  · rw [List.map_append]
    rfl

/-- **Every order of the documents.**  The table holds the chunks of `since` all along. -/
theorem deliver_documents (hn : n < UInt32.size) (since order : List (Fin n)) :
    deliver (tableOf p.id (since.map p.chunk)) (order.map fun i => (p.chunk i).document) =
      some (awaited p.message since.toFinset order) := by
  induction order generalizing since with
  | nil => rfl
  | cons i order ih =>
      rw [List.map_cons, deliver, Envelope.parse_document (p.sequence_mem_places hn i)]
      dsimp only
      rw [p.accept_chunk hn, awaited]
      split
      · -- the message came out, and the epoch starts again
        have hnext := ih []
        rw [List.map_nil, List.toFinset_nil] at hnext
        rw [hnext, size_tableOf]
        rfl
      · rw [ih (since ++ [i]), size_tableOf, insert_toFinset, if_neg (by simp)]
        rfl

end Parcel

/-! ### The documents of a text -/

/-- The documents of a text with few enough fragments are those of a message that holds the text. -/
theorem Parcel.exists_encode {chunker : Chunker} {payload : String}
    (h : (chunker.split payload).length < UInt32.size) (colony : ColonyId) (id : MessageId)
    (direction : Direction) :
    ∃ (docs : List String) (p : Parcel docs.length),
      chunker.encode colony id direction payload = .ok docs ∧
      docs.length = (chunker.split payload).length ∧
      p.message = .ofCall direction colony id payload ∧
      docs.get = fun i => (p.chunk i).document := by
  obtain ⟨docs, hdocs, hlen, hget⟩ := Chunker.encode_eq h colony id direction
  let p : Parcel docs.length :=
    ⟨id, colony, direction, fun i => (chunker.split payload).get (i.cast hlen)⟩
  refine ⟨docs, p, hdocs, hlen, ?_, funext hget⟩
  have hfragments : List.ofFn p.fragment = chunker.split payload :=
    List.ext_getElem (by simp [hlen]) fun i h₁ h₂ => by simp [p]
  rw [Parcel.message, hfragments, Chunker.join_split]

/-- **A text comes back, whatever the order.**  However often the documents of a text come and in
whichever order, each of them is read and none is rejected; the text comes back, in one message to
the same colony and of the same id, with the document that makes those since the last message all of
them, and the table is empty then; behind every other document the table holds one message. -/
theorem deliver_encode {chunker : Chunker} {payload : String}
    (h : (chunker.split payload).length < UInt32.size) (colony : ColonyId) (id : MessageId)
    (direction : Direction) :
    ∃ docs, chunker.encode colony id direction payload = .ok docs ∧
      docs.length = (chunker.split payload).length ∧
      ∀ order : List (Fin docs.length),
        deliver .empty (order.map docs.get) =
          some (awaited (.ofCall direction colony id payload) ∅ order) := by
  obtain ⟨docs, p, hdocs, hlen, hmessage, hget⟩ := Parcel.exists_encode h colony id direction
  refine ⟨docs, hdocs, hlen, fun order => ?_⟩
  rw [hget, ← hmessage]
  exact p.deliver_documents (hlen ▸ h) [] order

/-- A text of two chunks, with a character that is wider than the limit and one that is escaped. -/
theorem deliver_encode_two_chunks :
    ((Chunker.ofLimit 1).split (String.ofList ['é', '"'])).length < UInt32.size ∧
      ∃ docs, (Chunker.ofLimit 1).encode .topLevel ⟨7⟩ .response (String.ofList ['é', '"']) =
          .ok docs ∧
        docs.length = ((Chunker.ofLimit 1).split (String.ofList ['é', '"'])).length ∧
        ∀ order : List (Fin docs.length),
          deliver .empty (order.map docs.get) =
            some (awaited (.response .topLevel ⟨7⟩ (String.ofList ['é', '"'])) ∅ order) := by
  have h : ((Chunker.ofLimit 1).split (String.ofList ['é', '"'])).length < UInt32.size := by
    rw [Chunker.split, String.toList_ofList]
    decide
  exact ⟨h, deliver_encode h .topLevel ⟨7⟩ .response⟩

end NativeMessaging
