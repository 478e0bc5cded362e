import NativeMessaging.Host.Facilities
import NativeMessaging.Proofs.Host.Turn
import NativeMessaging.Proofs.Message.Chunker
import NativeMessaging.Proofs.Message.Grammar

/-!
# Host — texts that are rejected

A text that is rejected is posted as an error.  Either it does not read as a chunk, and the table
never sees it, or the table rejects the chunk.

* `Envelope.id_of_parse`: a text that reads as a chunk carries the id of its message.
* `Facilities.receive_error`: the two ways of a rejection, and the table behind each.
* `Facilities.answersTo_congr`: what the texts of a message make depends on what is held of it.
* `Facilities.evicts_iff`: which rejections leave nothing of a message that was arriving.
* `Facilities.not_evicts_unplaced`: a rejection that leaves it, and its next chunk completes it.
-/

namespace NativeMessaging

/-! ### Texts -/

namespace Envelope

/-- **A text that reads as a chunk carries the id of its message.** -/
theorem id_of_parse {raw : String} {root : Json} {c : Chunk} (hraw : Json.parse raw = .ok root)
    (hc : parse raw = .ok (.chunk c)) :
    (root.get? "cmdId").bind Json.uint32? = some c.id.val := by
  obtain ⟨members, hmembers, ⟨m, heq, -⟩ | ⟨c', heq, hcarries⟩⟩ := parse_eq_ok_iff.mp hc
  · cases heq
  · obtain rfl := Envelope.chunk.inj heq
    obtain rfl := Except.ok.inj (hraw.symm.trans hmembers)
    exact bind_uint32?_eq_some_iff.mpr hcarries.id

end Envelope

namespace Host.Facilities

variable {κ σ : Type}

/-- What arrives goes through the table; of the rest of the scene, only the message that comes out
is left for the loop. -/
theorem on_messageIn (raw : String) (scene : Scene κ (Facilities σ)) :
    (messageIn raw).on scene =
      (.ok (), { scene with
        posted := scene.posted ++ (receive scene.world.table raw).1.toList
        world := { scene.world with table := (receive scene.world.table raw).2 } }) := by
  let received : Scene κ (Facilities σ) :=
    { scene with world := { scene.world with table := (receive scene.world.table raw).2 } }
  have hstep : (Turn.step fun f : Facilities σ =>
      (.ok (receive f.table raw).1, { f with table := (receive f.table raw).2 })).on scene =
        (.ok (receive scene.world.table raw).1, received) := rfl
  rw [messageIn, Turn.on_bind]
  dsimp only
  rw [hstep]
  dsimp only
  cases (receive scene.world.table raw).1 with
  | none =>
      rw [Option.toList_none, List.append_nil]
      rfl
  | some m => rfl

/-! ### Rejections -/

/-- What the answer of a table makes. -/
def made : Except Rejection (Option Message) → Option Message
  | .ok m    => m
  | .error r => some (.error r.message)

theorem receive_chunk {raw : String} {c : Chunk} (h : Envelope.parse raw = .ok (.chunk c))
    (table : Reassembler) : receive table raw = (made (table.accept c).1, (table.accept c).2) := by
  rw [receive, h]
  dsimp only
  rcases table.accept c with ⟨_ | _, _⟩ <;> rfl

/-- **The two ways of a rejection.**  Either the text reads as nothing and the table stays as it
was, or the table rejects the chunk of the text and forgets its message. -/
theorem receive_error {table : Reassembler} {raw description : String}
    (h : (receive table raw).1 = some (.error description)) :
    (∃ r, Envelope.parse raw = .error r ∧ (receive table raw).2 = table) ∨
      ∃ c, Envelope.parse raw = .ok (.chunk c) ∧ (receive table raw).2 = table.erase c.id := by
  cases hparse : Envelope.parse raw with
  | error r => exact .inl ⟨r, rfl, by rw [receive, hparse]⟩
  | ok envelope =>
      cases envelope with
      | create mimetype => rw [receive, hparse] at h; cases h
      | chunk c =>
          rw [receive_chunk hparse] at h ⊢
          refine .inr ⟨c, rfl, ?_⟩
          obtain ⟨r, haccept⟩ | ⟨direction, _, _, haccept⟩ | ⟨_, haccept⟩ := table.accept_cases c
          · rw [haccept]
          · -- what a table completes is one half of a call, and no error
            rw [haccept] at h
            cases direction <;> cases h
          · rw [haccept] at h
            cases h

/-- The text is a chunk of that message. -/
def carries (id : MessageId) (raw : String) : Bool :=
  match Envelope.parse raw with
  | .ok (.chunk c) => c.id == id
  | _              => false

/-- What the texts of one message make, where texts arrive one after another. -/
def answersTo (id : MessageId) (table : Reassembler) : List String → List (Option Message)
  | []          => []
  | raw :: raws =>
    let later := answersTo id (receive table raw).2 raws
    if carries id raw then (receive table raw).1 :: later else later

/-- A text makes the same, and leaves the same of a message, where tables hold the same of it. -/
theorem receive_congr {id : MessageId} {table table' : Reassembler}
    (h : table.get? id = table'.get? id) (raw : String) :
    (receive table raw).2.get? id = (receive table' raw).2.get? id ∧
      (carries id raw → (receive table raw).1 = (receive table' raw).1) := by
  rw [carries]
  cases hparse : Envelope.parse raw with
  | error r => simp only [receive, hparse]; exact ⟨h, nofun⟩
  | ok envelope =>
      cases envelope with
      | create mimetype => simp only [receive, hparse]; exact ⟨h, nofun⟩
      | chunk c =>
          rw [receive_chunk hparse, receive_chunk hparse]
          by_cases hid : id = c.id
          · subst hid
            obtain ⟨hanswer, hget⟩ := Reassembler.accept_congr h
            exact ⟨hget, fun _ => by rw [hanswer]⟩
          · refine ⟨?_, fun hcarries => absurd (eq_of_beq hcarries).symm hid⟩
            rw [Reassembler.get?_accept_of_ne _ _ hid, Reassembler.get?_accept_of_ne _ _ hid, h]

/-- **Only what is held of a message decides what its texts make.** -/
theorem answersTo_congr {id : MessageId} {table table' : Reassembler}
    (h : table.get? id = table'.get? id) (raws : List String) :
    answersTo id table raws = answersTo id table' raws := by
  induction raws generalizing table table' with
  | nil => rfl
  | cons raw raws ih =>
      obtain ⟨hget, hanswer⟩ := receive_congr h raw
      rw [answersTo, answersTo, ih hget]
      split
      · next hcarries => rw [hanswer hcarries]
      · rfl

/-- **What a rejection leaves.**  Where a text with a message id is rejected, a rejection by the
table forgets that message and no other, and a rejection before the table changes nothing.  So
nothing of the message is left exactly where nothing of it was arriving, or the text did read as a
chunk; and its later texts then make what they would make of an empty table. -/
theorem evicts_iff {scene : Scene κ (Facilities σ)} {raw : String} {root : Json} {k : UInt32}
    {description : String} (hraw : Json.parse raw = .ok root)
    (hid : (root.get? "cmdId").bind Json.uint32? = some k)
    (hrejected : ((messageIn raw).on scene).2.posted = scene.posted ++ [.error description]) :
    let before := scene.world.table
    let after := ((messageIn raw).on scene).2.world.table
    let reads := ∃ c, Envelope.parse raw = .ok (.chunk c)
    (reads → after = before.erase ⟨k⟩) ∧ (¬ reads → after = before) ∧
      (after.get? ⟨k⟩ = none ↔ before.get? ⟨k⟩ = none ∨ reads) ∧
      (after.get? ⟨k⟩ = none →
        ∀ laters, answersTo ⟨k⟩ after laters = answersTo ⟨k⟩ .empty laters) := by
  intro before after reads
  have hafter : after = (receive before raw).2 := by simp only [after, on_messageIn, before]
  have hposted : (receive before raw).1 = some (.error description) := by
    rw [on_messageIn] at hrejected
    exact Option.toList_eq_singleton_iff.mp (List.append_cancel_left hrejected)
  have hreads : reads → after = before.erase ⟨k⟩ := by
    rintro ⟨c, hc⟩
    have hk : c.id = ⟨k⟩ := by
      have hread := Envelope.id_of_parse hraw hc
      rw [hid] at hread
      exact congrArg MessageId.mk (Option.some.inj hread).symm
    rcases receive_error hposted with ⟨r, hr, -⟩ | ⟨c', hc', herase⟩
    · rw [hr] at hc
      cases hc
    · obtain rfl : c' = c := by
        rw [hc] at hc'
        exact (Envelope.chunk.inj (Except.ok.inj hc')).symm
      rw [hafter, herase, hk]
  -- a text that reads as no chunk never gets to the table
  have hunread : ¬ reads → after = before := by
    intro hread
    rcases receive_error hposted with ⟨r, -, hsame⟩ | ⟨c, hc, -⟩
    · exact hafter.trans hsame
    · exact absurd ⟨c, hc⟩ hread
  refine ⟨hreads, hunread, ?_, fun hnone laters => answersTo_congr hnone laters⟩
  by_cases hread : reads
  · rw [hreads hread, Reassembler.get?_erase, if_pos rfl]
    exact ⟨fun _ => .inr hread, fun _ => rfl⟩
  · rw [hunread hread]
    exact ⟨.inl, fun h => h.resolve_right hread⟩

/-- The scene behind the first of two chunks, from an empty table. -/
def halfway : Scene Empty (Facilities Unit) :=
  ((messageIn (Chunk.document ⟨⟨1⟩, .topLevel, .command, 2, 1, "a"⟩)).on
    ⟨[], [], false, ⟨.empty, ⟨.unlimited, .largest⟩, ()⟩⟩).2

/-- A third chunk of two. -/
def surplus : Chunk := ⟨⟨1⟩, .topLevel, .command, 3, 3, "c"⟩

/-- The table rejects a third chunk of two, and forgets the first. -/
theorem evicts_iff_surplus :
    let after := ((messageIn surplus.document).on halfway).2
    let reads := ∃ c, Envelope.parse surplus.document = .ok (.chunk c)
    Json.parse surplus.document = .ok surplus.toJson ∧
      (surplus.toJson.get? "cmdId").bind Json.uint32? = some 1 ∧
      after.posted = halfway.posted ++
        [.error "invalid sequence size for message 1: already declared 2, got 3"] ∧
      (reads → after.world.table = halfway.world.table.erase ⟨1⟩) ∧
      (¬ reads → after.world.table = halfway.world.table) ∧
      (after.world.table.get? ⟨1⟩ = none ↔ halfway.world.table.get? ⟨1⟩ = none ∨ reads) ∧
      (after.world.table.get? ⟨1⟩ = none →
        ∀ laters, answersTo ⟨1⟩ after.world.table laters = answersTo ⟨1⟩ .empty laters) := by
  have hrejected : ((messageIn surplus.document).on halfway).2.posted = halfway.posted ++
      [.error "invalid sequence size for message 1: already declared 2, got 3"] := by
    decide +kernel
  have hraw : Json.parse surplus.document = .ok surplus.toJson :=
    Json.parse_print surplus.printable_toJson
  have hid : (surplus.toJson.get? "cmdId").bind Json.uint32? = some 1 := rfl
  exact ⟨hraw, hid, hrejected, evicts_iff hraw hid hrejected⟩

/-- A chunk without a place is rejected before the table: what came of its message stays, and
completes it with the next chunk. -/
theorem not_evicts_unplaced :
    let unplaced : Json :=
      .object [("cmdId", .ofUInt32 1), ("c", .ofUInt32 2), ("msg", .string "b")]
    let rejected := ((messageIn unplaced.print).on halfway).2
    let after := ((messageIn (Chunk.document ⟨⟨1⟩, .topLevel, .command, 2, 2, "b"⟩)).on rejected).2
    Json.parse unplaced.print = .ok unplaced ∧ unplaced.get? "cmd" = none ∧
      unplaced.get? "msg" = some (.string "b") ∧
      (unplaced.get? "cmdId").bind Json.uint32? = some 1 ∧
      rejected.posted =
        halfway.posted ++ [.error "missing sequence id in multi-part message"] ∧
      rejected.world.table.get? ⟨1⟩ ≠ none ∧
      after.posted = rejected.posted ++ [.command .topLevel ⟨1⟩ "ab"] := by
  intro unplaced rejected after
  have hprintable : Json.Printable Json.maxDepth unplaced := by
    refine .object fun m hm => ?_
    simp only [List.mem_cons, List.not_mem_nil, or_false] at hm
    rcases hm with rfl | rfl | rfl
    · exact Json.printable_ofUInt32 _ _
    · exact Json.printable_ofUInt32 _ _
    · exact .string _
  refine ⟨Json.parse_print hprintable, rfl, rfl, rfl, ?_, ?_, ?_⟩
  · decide +kernel
  · decide +kernel
  · decide +kernel

end Host.Facilities

end NativeMessaging
