import NativeMessaging.Proofs.Host.Sink
import NativeMessaging.Proofs.Message.Ack
import NativeMessaging.Proofs.Message.Delivery
import NativeMessaging.Proofs.Message.Size

/-!
# Host — what was sent arrives

The other side of the way out reads frames up to the end of the stream.  Of each text it takes what
it is: an ack, or a chunk for its table of messages that are still arriving (`take`).

* `Parcel.takeAll_documents`: the documents of a text, in order, make its message and leave nothing.
* `exists_perform`, `exists_performAll`: what sendings write, and what it is taken for.
* `receive_performAll`: whatever is sent through an open sink, by a chunker with a limit that
  settings may set, arrives once, complete and in order.
-/

namespace NativeMessaging

namespace Host

/-- What is asked of the way out: to send one half of a call, or an ack. -/
inductive Sending where
  | call (direction : Direction) (colony : ColonyId) (id : MessageId) (payload : String)
  | ack (ack : Ack)

/-- What arrives at the other side. -/
inductive Arrival where
  | message (message : Message)
  | ack (ack : Ack)
  deriving DecidableEq, Repr

namespace Sending

/-- What has to arrive. -/
def arrival : Sending → Arrival
  | .call direction colony id payload => .message (.ofCall direction colony id payload)
  | .ack a                            => .ack a

/-- What is sent is below the size that a header can say: the text of a call, or the text of an
ack. -/
def Fits : Sending → Prop
  | .call _ _ _ payload => payload.utf8ByteSize < UInt32.size
  | .ack a              => a.print.utf8ByteSize < UInt32.size

instance : DecidablePred Fits
  | .call _ _ _ payload => inferInstanceAs (Decidable (payload.utf8ByteSize < UInt32.size))
  | .ack a              => inferInstanceAs (Decidable (a.print.utf8ByteSize < UInt32.size))

def perform : Sending → Outbound → Written Frame.Error × Outbound
  | .call direction colony id payload, outbound => outbound.send colony id direction payload
  | .ack a,                            outbound => outbound.sendAck a

/-- Sends one after another: the results, and the way out behind them. -/
def performAll : List Sending → Outbound → List (Written Frame.Error) × Outbound
  | [],                  outbound => ([], outbound)
  | sending :: sendings, outbound =>
    let (result, outbound) := sending.perform outbound
    let (results, outbound) := performAll sendings outbound
    (result :: results, outbound)

end Sending

namespace Arrival

/-- What the other side takes from a text, and its table afterwards; none where the text is neither
an ack nor a chunk that is accepted. -/
def take (table : Reassembler) (text : String) : Option (List Arrival × Reassembler) :=
  match Ack.decode text with
  | .ok a    => some ([.ack a], table)
  | .error _ =>
    match Envelope.parse text with
    | .ok (.chunk c) =>
      match table.accept c with
      | (.ok (some m), table) => some ([.message m], table)
      | (.ok none, table)     => some ([], table)
      | (.error _, _)         => none
    | _ => none

/-- What the other side takes from texts, one after another. -/
def takeAll (table : Reassembler) : List String → Option (List Arrival × Reassembler)
  | []            => some ([], table)
  | text :: texts => do
    let (now, table) ← take table text
    let (later, table) ← takeAll table texts
    some (now ++ later, table)

/-- What arrives from a source that ends between two frames, and the table at its end. -/
def receive (limit : Nat) (source : Frame.Source) : Option (List Arrival × Reassembler) := do
  takeAll .empty (← source.texts limit (source.bytes.length + 1))

theorem takeAll_append {table between after : Reassembler} {now later : List Arrival}
    {texts texts' : List String} (h₁ : takeAll table texts = some (now, between))
    (h₂ : takeAll between texts' = some (later, after)) :
    takeAll table (texts ++ texts') = some (now ++ later, after) := by
  induction texts generalizing table now with
  | nil =>
      obtain ⟨rfl, rfl⟩ := Prod.mk.inj (Option.some.inj h₁)
      exact h₂
  | cons text texts ih =>
      obtain ⟨⟨first, next⟩, htake, hrest⟩ := Option.bind_eq_some_iff.mp h₁
      obtain ⟨⟨rest, last⟩, hall, heq⟩ := Option.bind_eq_some_iff.mp hrest
      obtain ⟨rfl, rfl⟩ := Prod.mk.inj (Option.some.inj heq)
      rw [List.cons_append, takeAll, htake]
      simp only [Option.bind_eq_bind, Option.bind_some, ih hall, List.append_assoc]

theorem take_print (table : Reassembler) (a : Ack) :
    take table a.print = some ([.ack a], table) := by
  rw [take, Ack.decode_print]

end Arrival

end Host

/-! ### The documents of a text -/

namespace Parcel

open Host (Arrival)
open Host.Arrival (take takeAll)

variable {n : Nat} (p : Parcel n)

/-- The document of a chunk is taken for that chunk. -/
theorem take_document (hn : n < UInt32.size) (since : List (Fin n)) (i : Fin n) :
    take (tableOf p.id (since.map p.chunk)) (p.chunk i).document =
      if insert i since.toFinset = Finset.univ then
        some ([Arrival.message p.message], tableOf p.id [])
      else some ([], tableOf p.id ((since ++ [i]).map p.chunk)) := by
  obtain ⟨e, hdecode⟩ := Ack.exists_decode_document (p.chunk i)
  rw [take, hdecode, Envelope.parse_document (p.sequence_mem_places hn i)]
  dsimp only
  rw [p.accept_chunk hn]
  by_cases hall : insert i since.toFinset = Finset.univ
  · rw [if_pos hall, if_pos hall]
  · rw [if_neg hall, if_neg hall]

/-- **The documents of a text, in order.**  Those of `since` have come, and those of `order` are all
that is missing. -/
theorem takeAll_documents (hn : n < UInt32.size) {since order : List (Fin n)}
    (h : since ++ order = List.finRange n) (hne : order ≠ []) :
    takeAll (tableOf p.id (since.map p.chunk)) (order.map fun i => (p.chunk i).document) =
      some ([Arrival.message p.message], .empty) := by
  induction order generalizing since with
  | nil => exact absurd rfl hne
  | cons i order ih =>
      rw [List.map_cons, takeAll, p.take_document hn, insert_toFinset]
      -- with the last index, and no earlier, they are all of them
      cases order with
      | nil =>
          have hall : (since ++ [i]).toFinset = Finset.univ := by
            rw [h]
            exact List.toFinset_finRange n
          rw [if_pos hall]
          rfl
      | cons j order =>
          have hrest : (since ++ [i]) ++ j :: order = List.finRange n := by simpa using h
          have hmissing : (since ++ [i]).toFinset ≠ Finset.univ := by
            intro hall
            have hj : j ∈ since ++ [i] := List.mem_toFinset.mp (hall ▸ Finset.mem_univ j)
            have hnodup := List.nodup_finRange n
            rw [← hrest] at hnodup
            exact (List.nodup_append.mp hnodup).2.2 j hj j (List.mem_cons_self ..) rfl
          rw [if_neg hmissing]
          have hnext := ih hrest (List.cons_ne_nil _ _)
          simp only [Option.bind_eq_bind, Option.bind_some, hnext, List.nil_append]

end Parcel

namespace Host

open Arrival (takeAll receive)

/-! ### Through an open sink -/

/-- The documents of a text that is below the size a header can say: there are some, each of them
is below that size too, and they are taken for the message. -/
theorem exists_documents {chunker : Chunker} (hlimit : chunker.limit ≤ Chunker.maxLimit)
    {payload : String} (hfits : payload.utf8ByteSize < UInt32.size) (colony : ColonyId)
    (id : MessageId) (direction : Direction) :
    ∃ docs, chunker.encode colony id direction payload = .ok docs ∧
      (∀ doc ∈ docs, doc.utf8ByteSize < UInt32.size) ∧
      takeAll .empty docs = some ([.message (.ofCall direction colony id payload)], .empty) := by
  have hfew : (chunker.split payload).length < UInt32.size := by
    have hsplit := Chunker.length_split_le chunker payload
    rw [UInt32.size] at hfits ⊢
    omega
  obtain ⟨docs, p, hdocs, hlen, hmessage, hget⟩ := Parcel.exists_encode hfew colony id direction
  refine ⟨docs, hdocs, Chunker.utf8ByteSize_lt_of_encode hlimit hdocs, ?_⟩
  have hne : List.finRange docs.length ≠ [] := by
    rw [Ne, List.finRange_eq_nil_iff, hlen, List.length_eq_zero_iff]
    exact Chunker.split_ne_nil chunker payload
  have hall := p.takeAll_documents (hlen ▸ hfew) (List.nil_append _) hne
  rwa [← hget, ← List.ofFn_eq_map, List.ofFn_get, hmessage] at hall

/-- **One sending.**  It succeeds, and what it writes is taken for what was sent. -/
theorem exists_perform {outbound : Outbound} (h : outbound.sink.IsOpen)
    (hlimit : outbound.chunker.limit ≤ Chunker.maxLimit) {sending : Sending}
    (hfits : sending.Fits) :
    ∃ texts outbound', outbound'.sink.IsOpen ∧ outbound'.chunker = outbound.chunker ∧
      outbound'.sink.written = (Frame.stream texts).reverse ++ outbound.sink.written ∧
      sending.perform outbound = (.ok (.ok ()), outbound') ∧
      (∀ text ∈ texts, text.utf8ByteSize < UInt32.size) ∧
      takeAll .empty texts = some ([sending.arrival], .empty) := by
  cases sending with
  | call direction colony id payload =>
      obtain ⟨docs, hdocs, hsize, htaken⟩ := exists_documents hlimit hfits colony id direction
      obtain ⟨outbound', hopen, hchunker, hwritten, hwrite⟩ := Outbound.exists_write h hsize
      refine ⟨docs, outbound', hopen, hchunker, hwritten, ?_, hsize, htaken⟩
      rw [Sending.perform, Outbound.send, hdocs]
      exact hwrite
  | ack a =>
      have hsize : ∀ text ∈ [a.print], text.utf8ByteSize < UInt32.size :=
        List.forall_mem_singleton.mpr hfits
      obtain ⟨outbound', hopen, hchunker, hwritten, hwrite⟩ := Outbound.exists_write h hsize
      refine ⟨[a.print], outbound', hopen, hchunker, hwritten, hwrite, hsize, ?_⟩
      rw [takeAll, Arrival.take_print]
      rfl

/-- **Sendings, one after another.**  All succeed, and the texts they write are taken for what was
sent, in order. -/
theorem exists_performAll {outbound : Outbound} (h : outbound.sink.IsOpen)
    (hlimit : outbound.chunker.limit ≤ Chunker.maxLimit) {sendings : List Sending}
    (hfits : ∀ sending ∈ sendings, sending.Fits) :
    ∃ texts outbound',
      outbound'.sink.written = (Frame.stream texts).reverse ++ outbound.sink.written ∧
      Sending.performAll sendings outbound =
        (sendings.map fun _ => .ok (.ok ()), outbound') ∧
      (∀ text ∈ texts, text.utf8ByteSize < UInt32.size) ∧
      takeAll .empty texts = some (sendings.map Sending.arrival, .empty) := by
  -- each sending leaves nothing in the table, so what the next one writes is taken from an empty one
  induction sendings generalizing outbound with
  | nil => exact ⟨[], outbound, rfl, rfl, List.forall_mem_nil _, rfl⟩
  | cons sending sendings ih =>
      obtain ⟨texts, between, hopen, hchunker, hwritten, hperform, hsize, htaken⟩ :=
        exists_perform h hlimit (hfits sending (List.mem_cons_self ..))
      obtain ⟨texts', outbound', hwritten', hrest, hsize', htaken'⟩ :=
        ih hopen (hchunker ▸ hlimit) fun s hs => hfits s (List.mem_cons_of_mem _ hs)
      refine ⟨texts ++ texts', outbound', ?_, ?_, List.forall_mem_append.mpr ⟨hsize, hsize'⟩, ?_⟩
      · rw [hwritten', hwritten, Frame.stream, Frame.stream, Frame.stream, List.flatMap_append,
          List.reverse_append, List.append_assoc]
      · rw [Sending.performAll, hperform]
        dsimp only
        rw [hrest]
        rfl
      · exact Arrival.takeAll_append htaken htaken'

/-- **What was sent arrives.**  Through a sink that takes every byte, in whatever pieces, every
sending succeeds; and whoever reads what was written, in whatever pieces it comes, gets exactly what
was sent, each message and each ack once, complete and in order, up to a clean end of the stream
with nothing held back. -/
theorem receive_performAll {outbound : Outbound} (hsink : outbound.sink.IsOpen)
    (hnew : outbound.sink.written = []) (hlimit : outbound.chunker.limit ≤ Chunker.maxLimit)
    {sendings : List Sending} (hfits : ∀ sending ∈ sendings, sending.Fits)
    {limit : Nat} (hunlimited : UInt32.size ≤ limit)
    {plan : List Frame.Reply} (hplan : Frame.Delivers plan) :
    (Sending.performAll sendings outbound).1 = sendings.map (fun _ => .ok (.ok ())) ∧
      receive limit ⟨(Sending.performAll sendings outbound).2.sink.drain.1, plan⟩ =
        some (sendings.map Sending.arrival, .empty) := by
  obtain ⟨texts, after, hwritten, hperform, hsize, htaken⟩ :=
    exists_performAll hsink hlimit hfits
  have hbytes : after.sink.drain.1 = Frame.stream texts := by
    rw [Sink.drain, hwritten, hnew, List.append_nil, List.reverse_reverse]
  have htexts : (⟨after.sink.drain.1, plan⟩ : Frame.Source).texts limit
      (after.sink.drain.1.length + 1) = some texts :=
    Frame.Source.texts_stream hsize hunlimited
      (Nat.lt_succ_of_le (hbytes ▸ Frame.length_le_stream texts)) hplan hbytes
  rw [hperform]
  refine ⟨rfl, ?_⟩
  rw [receive, htexts]
  exact htaken

/-- Two texts of one call and an ack between them, written three bytes at a time and read in other
pieces, with an interruption on either side; the first text takes two chunks. -/
theorem receive_performAll_pieces :
    let outbound : Outbound :=
      ⟨{ Sink.unlimited with plan := [.upTo 1, .interrupted], perCall := some 3 }, .ofLimit 1⟩
    let payload := String.ofList ['"', 'é']
    let sendings : List Sending :=
      [.call .command .topLevel ⟨7⟩ payload, .ack (.failure payload),
        .call .response .topLevel ⟨7⟩ ""]
    outbound.sink.IsOpen ∧ (∀ sending ∈ sendings, sending.Fits) ∧
      Frame.Delivers [.interrupted, .upTo 2] ∧
      (Sending.performAll sendings outbound).1 = [.ok (.ok ()), .ok (.ok ()), .ok (.ok ())] ∧
      receive UInt32.size
          ⟨(Sending.performAll sendings outbound).2.sink.drain.1, [.interrupted, .upTo 2]⟩ =
        some ([.message (.command .topLevel ⟨7⟩ payload), .ack (.failure payload),
          .message (.response .topLevel ⟨7⟩ "")], .empty) := by
  intro outbound payload sendings
  have hsink : outbound.sink.IsOpen :=
    { plan := by simp [outbound], perCall := by simp [outbound], room := rfl, refusal := rfl }
  have hfits : ∀ sending ∈ sendings, sending.Fits := by decide +kernel
  have hplan : Frame.Delivers [.interrupted, .upTo 2] := by simp [Frame.Delivers]
  exact ⟨hsink, hfits, hplan,
    receive_performAll hsink rfl (by decide) hfits (Nat.le_refl _) hplan⟩

end Host

end NativeMessaging
