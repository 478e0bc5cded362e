import NativeMessaging.Proofs.Json.Size
import NativeMessaging.Proofs.Message.Chunker
import NativeMessaging.Settings.Basic

/-!
# Message — how large the documents of a text are

A browser takes messages of at most one mebibyte (`maxMessage`).  A document holds its fragment
and, around it, what it holds of an empty fragment (`Chunk.framing`); and the escapes of the
fragment come on top.

* `Chunk.utf8ByteSize_document`: the size of a document is the sum of the three.
* `Chunk.framing_le`: everything but the fragment and its escapes takes at most 95 bytes.
* `Chunker.utf8ByteSize_document_le`, `Chunker.utf8ByteSize_lt_of_encode`: what a chunker's limit
  says of its documents.
* `documents_fit_iff`: under valid settings, the documents of a text fit where the escapes of every
  fragment keep to what is left; the limit alone sees to that where it is small enough.
* `not_documents_fit_control`: at the largest limit, control characters make a document too large.
-/

namespace NativeMessaging

open Json (growthOf)
open String (utf8Len)

/-- The bytes of a message that a browser takes. -/
def maxMessage : Nat := 1024 * 1024

namespace Chunk

/-- The bytes of the document of a chunk whose fragment is empty. -/
def framing (c : Chunk) : Nat := { c with fragment := "" }.document.utf8ByteSize

theorem utf8ByteSize_document_eq (c : Chunk) :
    c.document.utf8ByteSize =
      51 + c.direction.word.utf8ByteSize + growthOf c.direction.word +
        (Decimal.natText c.count.toNat).length + (Decimal.natText c.colony.val.toNat).length +
        (Decimal.natText c.id.val.toNat).length + (Decimal.natText c.sequence.toNat).length +
        (c.fragment.utf8ByteSize + growthOf c.fragment) := by
  have hnames : utf8Len (Json.quote "c") + utf8Len (Json.quote "type") +
      utf8Len (Json.quote "colonyId") + utf8Len (Json.quote "cmdId") + utf8Len (Json.quote "n") +
      utf8Len (Json.quote "msg") = 34 := by decide
  have hone : '\x7b'.utf8Size = 1 ∧ '\x7d'.utf8Size = 1 ∧ ':'.utf8Size = 1 ∧ ','.utf8Size = 1 := by
    decide
  obtain ⟨hopen, hclose, hcolon, hcomma⟩ := hone
  simp only [document, toJson, Json.print, String.utf8ByteSize_ofList, Json.text, Json.membersText,
    Json.ofUInt32, Json.Number.text, String.utf8Len_cons, String.utf8Len_append, String.utf8Len_nil,
    Json.utf8Len_natText, Json.utf8Len_quote c.fragment, Json.utf8Len_quote c.direction.word,
    hopen, hclose, hcolon, hcomma]
  omega

/-- **The size of a document**: its framing, the fragment, and what the escapes of the fragment
add. -/
theorem utf8ByteSize_document (c : Chunk) :
    c.document.utf8ByteSize = c.framing + c.fragment.utf8ByteSize + growthOf c.fragment := by
  have hempty : "".utf8ByteSize + growthOf "" = 0 := rfl
  rw [framing, utf8ByteSize_document_eq, utf8ByteSize_document_eq, hempty]
  dsimp only
  omega

/-- The framing takes at most 95 bytes, whatever the numbers. -/
theorem framing_le (c : Chunk) : c.framing ≤ 95 := by
  -- four numbers of at most ten digits, and the longer of the two words
  have hword : c.direction.word.utf8ByteSize + growthOf c.direction.word ≤ 4 := by
    cases c.direction <;> decide
  have hempty : "".utf8ByteSize + growthOf "" = 0 := rfl
  have hcount := Json.length_natText_le c.count
  have hcolony := Json.length_natText_le c.colony.val
  have hid := Json.length_natText_le c.id.val
  have hsequence := Json.length_natText_le c.sequence
  rw [framing, utf8ByteSize_document_eq, hempty]
  dsimp only
  omega

end Chunk

namespace Chunker

variable {chunker : Chunker} {colony : ColonyId} {id : MessageId} {direction : Direction}
  {payload : String} {chunks : List Chunk}

/-- The chunks of a text carry its fragments. -/
theorem fragment_mem_split (h : chunker.chunks colony id direction payload = .ok chunks)
    {c : Chunk} (hc : c ∈ chunks) : c.fragment ∈ chunker.split payload := by
  rw [Chunker.chunks] at h
  split at h
  · obtain rfl := Except.ok.inj h
    obtain ⟨i, hi, rfl⟩ := List.mem_mapIdx.mp hc
    exact List.getElem_mem hi
  · cases h

/-- A fragment is no larger than the limit, or than a character where the limit is smaller. -/
theorem utf8ByteSize_fragment_le (h : chunker.chunks colony id direction payload = .ok chunks)
    {c : Chunk} (hc : c ∈ chunks) : c.fragment.utf8ByteSize ≤ max chunker.limit 4 := by
  rcases keeps_of_mem_split (fragment_mem_split h hc) with hle | hone
  · rw [String.utf8Len_toList] at hle
    omega
  · obtain ⟨d, hd⟩ := List.length_eq_one_iff.mp hone
    have hwide := d.utf8Size_le_four
    rw [← String.utf8Len_toList, hd, String.utf8Len_cons, String.utf8Len_nil]
    omega

/-- **The size of a chunker's documents.**  Escapes make a fragment six times as large at most. -/
theorem utf8ByteSize_document_le (h : chunker.chunks colony id direction payload = .ok chunks)
    {c : Chunk} (hc : c ∈ chunks) :
    c.document.utf8ByteSize ≤ 95 + 6 * max chunker.limit 4 := by
  have hfragment := utf8ByteSize_fragment_le h hc
  have hframing := c.framing_le
  have hgrowth := Json.growthOf_le c.fragment
  rw [c.utf8ByteSize_document]
  omega

/-- The texts of a text's chunks are their documents. -/
theorem chunks_of_encode {docs : List String}
    (h : chunker.encode colony id direction payload = .ok docs) :
    ∃ chunks, chunker.chunks colony id direction payload = .ok chunks ∧
      docs = chunks.map Chunk.document := by
  rw [encode] at h
  cases hchunks : chunker.chunks colony id direction payload with
  | error e => rw [hchunks] at h; cases h
  | ok chunks =>
      rw [hchunks] at h
      exact ⟨chunks, rfl, (Except.ok.inj h).symm⟩

/-- **A frame can hold every document** of a chunker whose limit settings may set: the limit keeps a
document far below what a header can say, whatever is escaped in it. -/
theorem utf8ByteSize_lt_of_encode (hlimit : chunker.limit ≤ maxLimit) {docs : List String}
    (h : chunker.encode colony id direction payload = .ok docs) :
    ∀ doc ∈ docs, doc.utf8ByteSize < UInt32.size := by
  obtain ⟨chunks, hchunks, rfl⟩ := chunks_of_encode h
  refine List.forall_mem_map.mpr fun c hc => ?_
  have hle := utf8ByteSize_document_le hchunks hc
  rw [maxLimit] at hlimit
  rw [UInt32.size]
  omega

end Chunker

/-- The bounds that valid settings keep to. -/
theorem Settings.limit_of_check {settings : Settings} (h : settings.check = .ok ()) :
    1 ≤ settings.limits.maxChunkSize ∧ settings.limits.maxChunkSize ≤ Chunker.maxLimit := by
  rw [check] at h
  split at h
  · cases h
  split at h
  · cases h
  · omega

/-- **What fits.**  Under valid settings, a document leaves at least 262,049 bytes of a browser's
message to the escapes of its fragment, and the documents of a text all fit exactly where the
escapes of no fragment add more than its document leaves.  Under settings with a limit of at most
174,746 bytes, every document of every text fits. -/
theorem documents_fit_iff {settings : Settings} (hvalid : settings.check = .ok ())
    {colony : ColonyId} {id : MessageId} {direction : Direction} {payload : String}
    {docs : List String}
    (hdocs : (Chunker.ofLimit settings.limits.maxChunkSize).encode colony id direction payload =
      .ok docs) :
    ∃ chunks,
      (Chunker.ofLimit settings.limits.maxChunkSize).chunks colony id direction payload =
        .ok chunks ∧
      docs = chunks.map Chunk.document ∧
      (∀ c ∈ chunks, c.framing + c.fragment.utf8ByteSize + 262049 ≤ maxMessage) ∧
      ((∀ doc ∈ docs, doc.utf8ByteSize ≤ maxMessage) ↔
        ∀ c ∈ chunks,
          growthOf c.fragment ≤ maxMessage - (c.framing + c.fragment.utf8ByteSize)) ∧
      (settings.limits.maxChunkSize ≤ 174746 → ∀ doc ∈ docs, doc.utf8ByteSize ≤ maxMessage) := by
  obtain ⟨chunks, hchunks, rfl⟩ := Chunker.chunks_of_encode hdocs
  obtain ⟨hpos, hlimit⟩ := Settings.limit_of_check hvalid
  have hofLimit : (Chunker.ofLimit settings.limits.maxChunkSize).limit =
      settings.limits.maxChunkSize := Nat.max_eq_left hpos
  rw [Chunker.maxLimit] at hlimit
  have hroom : ∀ c ∈ chunks, c.framing + c.fragment.utf8ByteSize + 262049 ≤ maxMessage := by
    intro c hc
    have hfragment := Chunker.utf8ByteSize_fragment_le hchunks hc
    have hframing := c.framing_le
    rw [hofLimit] at hfragment
    rw [maxMessage]
    omega
  refine ⟨chunks, hchunks, rfl, hroom, ?_, fun hsmall => ?_⟩
  · rw [List.forall_mem_map]
    refine forall₂_congr fun c hc => ?_
    have := hroom c hc
    rw [c.utf8ByteSize_document]
    omega
  · refine List.forall_mem_map.mpr fun c hc => ?_
    have hsize := Chunker.utf8ByteSize_document_le hchunks hc
    rw [hofLimit] at hsize
    rw [maxMessage]
    omega

/-- Settings with a limit of two bytes, and a text that takes two chunks, with a wide character and
two that are escaped. -/
theorem documents_fit_iff_two_chunks :
    let settings : Settings := { Settings.default with limits := ⟨2, 1⟩ }
    let payload := String.ofList ['é', '"', '\x01']
    settings.check = .ok () ∧
      ∃ docs, (Chunker.ofLimit 2).encode .topLevel ⟨7⟩ .response payload = .ok docs ∧
        ∃ chunks, (Chunker.ofLimit 2).chunks .topLevel ⟨7⟩ .response payload = .ok chunks ∧
          docs = chunks.map Chunk.document ∧
          (∀ c ∈ chunks, c.framing + c.fragment.utf8ByteSize + 262049 ≤ maxMessage) ∧
          ((∀ doc ∈ docs, doc.utf8ByteSize ≤ maxMessage) ↔
            ∀ c ∈ chunks,
              growthOf c.fragment ≤ maxMessage - (c.framing + c.fragment.utf8ByteSize)) ∧
          (2 ≤ 174746 → ∀ doc ∈ docs, doc.utf8ByteSize ≤ maxMessage) := by
  intro settings payload
  have hvalid : settings.check = .ok () := rfl
  have hfew : ((Chunker.ofLimit 2).split payload).length < UInt32.size := by
    rw [Chunker.split, String.toList_ofList]
    decide
  obtain ⟨docs, hdocs, -⟩ := Chunker.encode_eq hfew .topLevel ⟨7⟩ .response
  exact ⟨hvalid, docs, hdocs, documents_fit_iff hvalid hdocs⟩

theorem utf8Len_replicate (n : Nat) (c : Char) :
    utf8Len (List.replicate n c) = n * c.utf8Size := by
  induction n with
  | zero => rw [List.replicate_zero, String.utf8Len_nil, Nat.zero_mul]
  | succ n ih => rw [List.replicate_succ, String.utf8Len_cons, ih, Nat.succ_mul]

/-- The settings that hold where nothing is set are valid, and with them the document of 200,000
control characters is too large for a browser. -/
theorem not_documents_fit_control :
    let payload := String.ofList (List.replicate 200000 '\x01')
    Settings.default.check = .ok () ∧
      ∃ docs, (Chunker.ofLimit Settings.default.limits.maxChunkSize).encode .topLevel ⟨1⟩ .command
          payload = .ok docs ∧
        ∃ doc ∈ docs, maxMessage < doc.utf8ByteSize := by
  intro payload
  have hbytes : payload.utf8ByteSize = 200000 := by
    rw [String.utf8ByteSize_ofList, utf8Len_replicate]
    rfl
  have hgrowth : growthOf payload = 1000000 := by
    rw [growthOf, String.toList_ofList, List.map_replicate, List.sum_replicate_nat]
    rfl
  have hsplit : (Chunker.ofLimit Settings.default.limits.maxChunkSize).split payload = [payload] :=
    Chunker.split_of_le (by rw [hbytes]; decide)
  have hencode : (Chunker.ofLimit Settings.default.limits.maxChunkSize).encode .topLevel ⟨1⟩
      .command payload = .ok [(Chunker.chunkAt .topLevel ⟨1⟩ .command 1 0 payload).document] := by
    rw [Chunker.encode, Chunker.chunks, hsplit]
    rfl
  refine ⟨rfl, _, hencode, _, List.mem_singleton_self _, ?_⟩
  rw [Chunk.utf8ByteSize_document, Chunker.chunkAt, hbytes, hgrowth, maxMessage]
  omega

end NativeMessaging
