import Mathlib.Data.List.DropRight
import NativeMessaging.Proofs.Message.Reassembly

/-!
# Message — the table refines its history

A history is the chunks a table was given, each with its answer.  The *epoch* of a message id is
the chunks of that id since the last one that was answered by a message or by a rejection (`epoch`):
those that are still being waited on.

`answer` says what has to be answered to a chunk in terms of the epoch of its id alone, without a
table: the range of the sequence number, then the count that the epoch declares, then whether the
epoch and the chunk together leave no place out.

* `History.get?_table`: of every id the table holds the epoch, the last fragment for each place
  under the declaration of the first chunk (`pendingOf`).
* `accept_refines_history`: every answer is `answer`; the chunks of the id alone give the same
  answer; and the size of the table is the number of ids with an epoch.
-/

namespace NativeMessaging

/-- What a table answers a chunk. -/
abbrev Answer := Except Rejection (Option Message)

/-- The chunk is kept until others arrive. -/
def Answer.isWaiting : Answer → Bool
  | .ok none     => true
  | .ok (some _) => false
  | .error _     => false

/-- A chunk and what it was answered. -/
structure Exchange where
  chunk : Chunk
  answer : Answer

/-- The exchanges of a table so far, and the table. -/
structure History where
  log : List Exchange
  table : Reassembler

namespace History

/-- The history with one more chunk. -/
def next (h : History) (c : Chunk) : History :=
  ⟨h.log ++ [⟨c, (h.table.accept c).1⟩], (h.table.accept c).2⟩

/-- The history of an empty table that is given chunks. -/
def ofChunks (chunks : List Chunk) : History := chunks.foldl next ⟨[], .empty⟩

theorem ofChunks_concat (chunks : List Chunk) (c : Chunk) :
    ofChunks (chunks ++ [c]) = (ofChunks chunks).next c := by
  simp [ofChunks]

theorem next_log (h : History) (c : Chunk) :
    (h.next c).log = h.log ++ [⟨c, (h.table.accept c).1⟩] := rfl

theorem next_table (h : History) (c : Chunk) : (h.next c).table = (h.table.accept c).2 := rfl

end History

/-- The chunks of an id since the last one that was answered by a message or a rejection. -/
def epoch (id : MessageId) (log : List Exchange) : List Chunk :=
  ((log.filter (·.chunk.id = id)).rtakeWhile (·.answer.isWaiting)).map
    Exchange.chunk

theorem epoch_concat_of_ne {id : MessageId} {e : Exchange} (h : id ≠ e.chunk.id)
    (log : List Exchange) : epoch id (log ++ [e]) = epoch id log := by
  simp [epoch, Ne.symm h]

theorem epoch_concat (log : List Exchange) (e : Exchange) :
    epoch e.chunk.id (log ++ [e]) =
      if e.answer.isWaiting then epoch e.chunk.id log ++ [e.chunk] else [] := by
  simp only [epoch, List.filter_append, List.filter_cons_of_pos, decide_true, List.filter_nil,
    List.rtakeWhile_concat]
  split <;> simp

/-! ### The answer that a history asks for -/

/-- The last fragment that chunks give for a place. -/
def lastFragment (chunks : List Chunk) (n : UInt32) : Option String :=
  (chunks.filter (·.sequence = n)).getLast?.map Chunk.fragment

theorem lastFragment_concat (chunks : List Chunk) (c : Chunk) :
    lastFragment (chunks ++ [c]) =
      Function.update (lastFragment chunks) c.sequence (some c.fragment) := by
  funext n
  by_cases h : n = c.sequence
  · subst h
    simp [lastFragment]
  · rw [Function.update_of_ne h]
    simp [lastFragment, Ne.symm h]

theorem isSome_lastFragment {chunks : List Chunk} {n : UInt32} :
    (lastFragment chunks n).isSome ↔ ∃ d ∈ chunks, d.sequence = n := by
  simp [lastFragment]

/-- Chunks leave out no place of a message of `count` chunks. -/
def Covers (chunks : List Chunk) (count : UInt32) : Prop :=
  ∀ n ∈ places count, ∃ d ∈ chunks, d.sequence = n

instance (chunks : List Chunk) (count : UInt32) : Decidable (Covers chunks count) :=
  List.decidableBAll (fun n => ∃ d ∈ chunks, d.sequence = n) (places count)

theorem all_isSome_lastFragment {chunks : List Chunk} {count : UInt32} :
    ((places count).all fun n => (lastFragment chunks n).isSome) = true ↔ Covers chunks count := by
  simp only [List.all_eq_true, isSome_lastFragment, Covers]

/-- What is to be answered to a chunk, by the epoch of its id.  The first chunk of the epoch
declares the message; where the epoch is empty, that is the chunk itself. -/
def answer (epoch : List Chunk) (c : Chunk) : Answer :=
  let first := epoch.headD c
  let chunks := epoch ++ [c]
  if c.sequence = 0 ∨ c.count < c.sequence then .error (.sequenceOutOfRange c.sequence c.count)
  else if first.count ≠ c.count then .error (.sequenceSizeMismatch c.id first.count c.count)
  else if Covers chunks c.count then
    .ok (some (.ofCall first.direction first.colony c.id
      (String.join ((places c.count).map fun n => (lastFragment chunks n).getD ""))))
  else .ok none

/-! ### What the table holds of an epoch -/

/-- What there is to hold of an epoch: nothing of an empty one. -/
def pendingOf (epoch : List Chunk) : Option PendingMessage :=
  epoch.head?.map fun first =>
    .holding first.count first.colony first.direction (lastFragment epoch)

theorem getD_pendingOf (epoch : List Chunk) (c : Chunk) :
    (pendingOf epoch).getD (.ofChunk c) =
      .holding (epoch.headD c).count (epoch.headD c).colony (epoch.headD c).direction
        (lastFragment epoch) := by
  cases epoch with
  | nil => exact PendingMessage.ofChunk_eq_holding c
  | cons first rest => rfl

theorem pendingOf_concat (epoch : List Chunk) (c : Chunk) :
    pendingOf (epoch ++ [c]) =
      some (.holding (epoch.headD c).count (epoch.headD c).colony (epoch.headD c).direction
        (lastFragment (epoch ++ [c]))) := by
  cases epoch <;> rfl

theorem isSome_pendingOf (epoch : List Chunk) : (pendingOf epoch).isSome ↔ epoch ≠ [] := by
  cases epoch <;> simp [pendingOf]

/-- **One step.**  A table that holds the epoch of the chunk's id answers what the epoch asks for,
and holds the longer epoch where the chunk is waited on. -/
theorem accept_eq_answer {table : Reassembler} {c : Chunk} {epoch : List Chunk}
    (h : table.get? c.id = pendingOf epoch) :
    table.accept c =
      (answer epoch c, table.hold c.id
        (if (answer epoch c).isWaiting then pendingOf (epoch ++ [c]) else none)) := by
  have hacc := Reassembler.accept_eq (h ▸ getD_pendingOf epoch c)
  rw [← lastFragment_concat] at hacc
  simp only [all_isSome_lastFragment] at hacc
  rw [hacc, answer]
  split
  · rfl
  split
  · rfl
  rename_i hcount
  split
  · rfl
  · rw [pendingOf_concat, not_not.mp hcount]
    rfl

namespace History

/-- **The table holds the epochs.** -/
theorem get?_table (chunks : List Chunk) (id : MessageId) :
    (ofChunks chunks).table.get? id = pendingOf (epoch id (ofChunks chunks).log) := by
  induction chunks using List.reverseRecOn generalizing id with
  | nil => rfl
  | append_singleton chunks c ih =>
      -- the chunk changes what is held of its own id, and the epoch of its own id alone
      rw [ofChunks_concat, next_table, next_log]
      by_cases h : id = c.id
      · subst h
        rw [epoch_concat _ ⟨c, ((ofChunks chunks).table.accept c).1⟩, accept_eq_answer (ih c.id),
          Reassembler.get?_hold, if_pos rfl]
        split <;> rfl
      · rw [epoch_concat_of_ne h, ← ih, Reassembler.get?_accept_of_ne _ _ h]

theorem distinct_table (chunks : List Chunk) : (ofChunks chunks).table.Distinct := by
  induction chunks using List.reverseRecOn with
  | nil => exact Reassembler.distinct_empty
  | append_singleton chunks c ih =>
      rw [ofChunks_concat]
      exact ih.accept c

/-- Every answer is the one that the epoch of the chunk's id asks for. -/
theorem accept_table (chunks : List Chunk) (c : Chunk) :
    ((ofChunks chunks).table.accept c).1 = answer (epoch c.id (ofChunks chunks).log) c := by
  rw [accept_eq_answer (get?_table chunks c.id)]

theorem epoch_filter (id : MessageId) (log : List Exchange) :
    epoch id (log.filter (·.chunk.id = id)) = epoch id log := by
  simp [epoch]

/-- The exchanges of an id are those of a table that is given the chunks of that id alone. -/
theorem filter_log (chunks : List Chunk) (id : MessageId) :
    (ofChunks chunks).log.filter (·.chunk.id = id) =
      (ofChunks (chunks.filter (·.id = id))).log := by
  induction chunks using List.reverseRecOn with
  | nil => rfl
  | append_singleton chunks c ih =>
      rw [ofChunks_concat, next, List.filter_append, ih, List.filter_append]
      by_cases h : c.id = id
      · subst h
        have hanswer : ((ofChunks (chunks.filter (·.id = c.id))).table.accept c).1 =
            ((ofChunks chunks).table.accept c).1 := by
          rw [accept_table, accept_table, ← ih, epoch_filter]
        rw [List.filter_cons_of_pos (by simp), List.filter_cons_of_pos (by simp), List.filter_nil,
          List.filter_nil, ofChunks_concat, next, hanswer]
      · rw [List.filter_cons_of_neg (by simpa using h), List.filter_cons_of_neg (by simpa using h),
          List.filter_nil, List.filter_nil, List.append_nil, List.append_nil]

/-- The epoch of an id depends on the chunks of that id alone. -/
theorem epoch_ofChunks (chunks : List Chunk) (id : MessageId) :
    epoch id (ofChunks (chunks.filter (·.id = id))).log = epoch id (ofChunks chunks).log := by
  rw [← filter_log, epoch_filter]

/-- The table holds as many messages as there are ids with an epoch. -/
theorem size_table (chunks : List Chunk) :
    ((ofChunks chunks).table.size : ℕ∞) =
      {id | epoch id (ofChunks chunks).log ≠ []}.encard := by
  rw [Reassembler.size_eq_encard (distinct_table chunks)]
  simp only [get?_table, isSome_pendingOf]

end History

/-- **The table refines its history.**  Every answer is the one that the epoch of the chunk's id
asks for; a table that was given the chunks of that id alone gives the same answer; and after every
step the table holds as many messages as there are ids with an epoch. -/
theorem accept_refines_history (chunks : List Chunk) (c : Chunk) :
    let h := History.ofChunks chunks
    (h.table.accept c).1 = answer (epoch c.id h.log) c ∧
      ((History.ofChunks (chunks.filter (·.id = c.id))).table.accept c).1 = (h.table.accept c).1 ∧
      ((h.next c).table.size : ℕ∞) = {id | epoch id (h.next c).log ≠ []}.encard := by
  refine ⟨History.accept_table chunks c, ?_, ?_⟩
  · rw [History.accept_table, History.accept_table, History.epoch_ofChunks]
  · rw [← History.ofChunks_concat]
    exact History.size_table (chunks ++ [c])

end NativeMessaging
