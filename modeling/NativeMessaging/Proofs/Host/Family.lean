import NativeMessaging.Proofs.Host.Inbound
import NativeMessaging.Proofs.Message.Family

/-!
# Host — families of messages that arrive

The documents of several texts arrive mixed up, in any order.  Texts of which no two meet are all
posted, each once and as it was sent; and where two of them meet, an order of the documents keeps
one from being posted.

* `Facilities.on_messagesIn`: documents of chunks are posted as the table settles them.
* `Facilities.posts_apart`: the families of texts that arrive whole in every order.
* `Facilities.mixed_calls`: a command and a response with one id, of two chunks each.
-/

namespace NativeMessaging.Host.Facilities

variable {κ σ : Type}

/-- Takes the texts of frames, one behind the other. -/
def messagesIn (raws : List String) : Turn κ (Facilities σ) Unit := forM raws messageIn

/-- What is posted for what comes out of the table. -/
def postings (settled : List (MessageId × Answer)) : List Message :=
  settled.filterMap fun a => made a.2

theorem postings_settled_cons (table : Reassembler) (c : Chunk) (cs : List Chunk) :
    postings (table.settled (c :: cs)) =
      (made (table.accept c).1).toList ++ postings ((table.accept c).2.settled cs) := by
  rw [Reassembler.settled]
  rcases table.accept c with ⟨_ | _ | m, table'⟩ <;> rfl

/-- **Documents of chunks** go through the table one by one, and nothing else changes. -/
theorem on_messagesIn {cs : List Chunk} (hplaces : ∀ c ∈ cs, c.sequence ∈ places c.count)
    (scene : Scene κ (Facilities σ)) :
    (messagesIn (cs.map Chunk.document)).on scene =
      (.ok (), { scene with
        posted := scene.posted ++ postings (scene.world.table.settled cs)
        world := { scene.world with table := scene.world.table.after cs } }) := by
  induction cs generalizing scene with
  | nil =>
      change (Except.ok (), scene) = _
      rw [Reassembler.settled, postings, List.filterMap_nil, List.append_nil, Reassembler.after]
  | cons c cs ih =>
      obtain ⟨hplace, hplaces⟩ := List.forall_mem_cons.mp hplaces
      have hreceive := receive_chunk (Envelope.parse_document hplace) scene.world.table
      rw [List.map_cons, messagesIn, List.forM_cons, Turn.on_bind, on_messageIn, hreceive]
      refine (ih hplaces _).trans ?_
      rw [postings_settled_cons, Reassembler.after, List.append_assoc]

theorem postings_outcome (family : List Sending) :
    postings (family.map Sending.outcome) = family.map Sending.message := by
  rw [postings, List.filterMap_map]
  exact congrFun (List.filterMap_eq_map (f := Sending.message)) family

/-- A rejection is posted, and is none of the messages of a family. -/
theorem not_perm_postings {family : List Sending} {settled : List (MessageId × Answer)}
    (h : (∃ id r, (id, .error r) ∈ settled) ∨ settled.length < family.length) :
    ¬ (postings settled).Perm (family.map Sending.message) := by
  intro hperm
  rcases h with ⟨id, r, hr⟩ | hshort
  · have hposted : Message.error r.message ∈ postings settled :=
      List.mem_filterMap.mpr ⟨(id, .error r), hr, rfl⟩
    obtain ⟨s, -, hs⟩ := List.mem_map.mp (hperm.mem_iff.mp hposted)
    rw [Sending.message] at hs
    cases hd : s.direction <;> rw [hd] at hs <;> cases hs
  · have hlen := hperm.length_eq
    have hle : (postings settled).length ≤ settled.length := List.length_filterMap_le _ _
    rw [List.length_map] at hlen
    omega

theorem mem_places_of_mem_family {family : List Sending}
    (hfew : ∀ s ∈ family, s.pieces < UInt32.size) {cs : List Chunk}
    (hcs : cs.Perm (family.flatMap Sending.chunks)) : ∀ c ∈ cs, c.sequence ∈ places c.count := by
  intro c hc
  obtain ⟨s, hs, hcs⟩ := List.mem_flatMap.mp (hcs.mem_iff.mp hc)
  obtain ⟨-, hcount, hplace⟩ := Sending.agree_chunks (hfew s hs) c hcs
  exact hcount ▸ hplace

/-- **The families that arrive whole.**  Texts are sent as documents to a host that holds nothing of
their ids.  Where no two of them meet, every order of all documents posts every text once, with its
own payload, direction and colony, and posts nothing else; and the host then holds what it held
before.  Where two of them meet, an interleaving of the documents does not. -/
theorem posts_apart {family : List Sending} {docs : List (List String)}
    {scene : Scene κ (Facilities σ)} (hdocs : family.mapM Sending.encode = .ok docs)
    (hnone : ∀ s ∈ family, scene.world.table.get? s.id = none) :
    (Sending.Apart family → ∀ order, order.Perm docs.flatten →
      ∃ messages table, messages.Perm (family.map Sending.message) ∧
        (∀ id, table.get? id = scene.world.table.get? id) ∧
        (messagesIn order).on scene = (.ok (), { scene with
          posted := scene.posted ++ messages
          world := { scene.world with table := table } })) ∧
      (¬ Sending.Apart family → ∃ order, order.Perm docs.flatten ∧
        (∀ ds ∈ docs, ds.Sublist order) ∧
        ¬ ∃ messages, messages.Perm (family.map Sending.message) ∧
          ((messagesIn order).on scene).2.posted = scene.posted ++ messages) := by
  obtain ⟨hfew, rfl⟩ := Sending.of_mapM_encode hdocs
  have hflat : (family.map fun s => s.chunks.map Chunk.document).flatten =
      (family.flatMap Sending.chunks).map Chunk.document := by
    rw [List.map_flatMap]
    rfl
  rw [hflat]
  constructor
  · intro hapart order horder
    obtain ⟨cs, rfl, hcs⟩ :=
      (congrFun (congrFun (List.eq_map_comp_perm Chunk.document) order) _).mpr horder
    obtain ⟨hsettled, hafter⟩ := Sending.settled_of_apart hfew hapart hnone hcs
    refine ⟨_, _, ?_, hafter, on_messagesIn (mem_places_of_mem_family hfew hcs) scene⟩
    rw [← postings_outcome]
    exact hsettled.filterMap _
  · intro hmeet
    obtain ⟨cs, hcs, hsub, hfails⟩ := Sending.exists_unsettled hfew hmeet hnone
    refine ⟨cs.map Chunk.document, hcs.map _, fun ds hds => ?_, ?_⟩
    · obtain ⟨s, hs, rfl⟩ := List.mem_map.mp hds
      exact (hsub s hs).map _
    · rintro ⟨messages, hperm, hposted⟩
      rw [on_messagesIn (mem_places_of_mem_family hfew hcs)] at hposted
      rw [← List.append_cancel_left hposted] at hperm
      exact not_perm_postings hfails hperm

/-- A host that nothing has come to. -/
def idle : Scene Empty (Facilities Unit) := ⟨[], [], false, ⟨.empty, ⟨.unlimited, .largest⟩, ()⟩⟩

/-- Two texts of two chunks with different ids, and two texts of one chunk with one id. -/
def calls : List Sending :=
  [⟨.ofLimit 1, .command, .topLevel, ⟨1⟩, "ab"⟩, ⟨.ofLimit 2, .response, ⟨4⟩, ⟨2⟩, "éé"⟩,
    ⟨.largest, .command, .topLevel, ⟨3⟩, ""⟩, ⟨.largest, .response, .topLevel, ⟨3⟩, "c"⟩]

/-- These arrive whole in every order. -/
theorem posts_apart_calls :
    ∃ docs, calls.mapM Sending.encode = .ok docs ∧
      (∀ s ∈ calls, idle.world.table.get? s.id = none) ∧ Sending.Apart calls ∧
      ∀ order, order.Perm docs.flatten →
        ∃ messages table, messages.Perm (calls.map Sending.message) ∧
          (∀ id, table.get? id = idle.world.table.get? id) ∧
          (messagesIn order).on idle = (.ok (), { idle with
            posted := idle.posted ++ messages
            world := { idle.world with table := table } }) := by
  have hnone : ∀ s ∈ calls, idle.world.table.get? s.id = none := fun _ _ => rfl
  have hapart : Sending.Apart calls := by
    simp only [Sending.Apart, calls, List.pairwise_cons, List.forall_mem_cons]
    decide +kernel
  obtain ⟨docs, hdocs⟩ : ∃ docs, calls.mapM Sending.encode = .ok docs := ⟨_, rfl⟩
  exact ⟨docs, hdocs, hnone, hapart, (posts_apart hdocs hnone).1 hapart⟩

/-- **A command and a response of one id mix**, where each is two chunks and they arrive in turns:
one message comes out, made of both, and a chunk of the response is left. -/
theorem mixed_calls :
    let command : Sending := ⟨.ofLimit 1, .command, .topLevel, ⟨1⟩, "ab"⟩
    let response : Sending := ⟨.ofLimit 1, .response, .topLevel, ⟨1⟩, "cd"⟩
    let a := Chunk.document ⟨⟨1⟩, .topLevel, .command, 2, 1, "a"⟩
    let b := Chunk.document ⟨⟨1⟩, .topLevel, .command, 2, 2, "b"⟩
    let c := Chunk.document ⟨⟨1⟩, .topLevel, .response, 2, 1, "c"⟩
    let d := Chunk.document ⟨⟨1⟩, .topLevel, .response, 2, 2, "d"⟩
    let mixed := ((messagesIn [a, c, b, d]).on idle).2
    command.direction ≠ response.direction ∧
      command.encode = .ok [a, b] ∧ response.encode = .ok [c, d] ∧
      [a, b].Sublist [a, c, b, d] ∧ [c, d].Sublist [a, c, b, d] ∧
      mixed.posted = [.command .topLevel ⟨1⟩ "cb"] ∧ mixed.world.table.size = 1 ∧
      ¬ mixed.posted.Perm [command.message, response.message] := by
  intro command response a b c d mixed
  let cs : List Chunk := [⟨⟨1⟩, .topLevel, .command, 2, 1, "a"⟩,
    ⟨⟨1⟩, .topLevel, .response, 2, 1, "c"⟩, ⟨⟨1⟩, .topLevel, .command, 2, 2, "b"⟩,
    ⟨⟨1⟩, .topLevel, .response, 2, 2, "d"⟩]
  have hmixed : mixed = ((messagesIn (cs.map Chunk.document)).on idle).2 := rfl
  rw [on_messagesIn (by decide)] at hmixed
  have hposted : mixed.posted = [.command .topLevel ⟨1⟩ "cb"] := by
    rw [hmixed]
    decide +kernel
  have hleft : mixed.world.table.size = 1 := by
    rw [hmixed]
    decide +kernel
  refine ⟨by decide, Sending.encode_eq_ok_iff.mpr ⟨by decide +kernel, by decide +kernel⟩,
    Sending.encode_eq_ok_iff.mpr ⟨by decide +kernel, by decide +kernel⟩,
    .cons_cons _ (.cons _ (.cons_cons _ (.cons _ .slnil))),
    .cons _ (.cons_cons _ (.cons _ (.cons_cons _ .slnil))), hposted, hleft, fun hperm => ?_⟩
  rw [hposted] at hperm
  cases hperm.length_eq

end NativeMessaging.Host.Facilities
