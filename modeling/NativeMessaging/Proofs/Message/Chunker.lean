import Mathlib.Data.String.Basic
import NativeMessaging.Message.Chunker
import NativeMessaging.Proofs.Json.RoundTrip
import NativeMessaging.Proofs.Message.Grammar

/-!
# Message — the chunks of a text, and their documents

* `Envelope.parse_document`: the document of a chunk whose place is one of its message's places
  reads back as that chunk.
* `Chunker.join_split`: the fragments of a text joined are the text.
* `Chunker.keeps_of_mem_split`, `Chunker.length_split_le`, `Chunker.split_of_le`: how large the
  fragments are, and how many.
* `Chunker.encode_eq`: a text with few enough fragments has a document for each of them, at the
  places in order.
-/

namespace NativeMessaging

/-! ### The document of a chunk -/

theorem Json.uint32?_ofUInt32 (n : UInt32) : (Json.ofUInt32 n).uint32? = some n := by
  have hn : n.toNat < UInt32.size := n.toNat_lt
  simp [ofUInt32, uint32?, natural?, hn]

theorem Json.printable_ofUInt32 (depth : Nat) (n : UInt32) : Printable depth (.ofUInt32 n) :=
  .natural (Nat.lt_trans n.toNat_lt (by decide))

theorem Chunk.printable_toJson (c : Chunk) : Json.Printable Json.maxDepth c.toJson := by
  refine .object fun m hm => ?_
  simp only [List.mem_cons, List.not_mem_nil, or_false] at hm
  rcases hm with rfl | rfl | rfl | rfl | rfl | rfl
  · exact Json.printable_ofUInt32 _ _
  · exact .string _
  · exact Json.printable_ofUInt32 _ _
  · exact Json.printable_ofUInt32 _ _
  · exact Json.printable_ofUInt32 _ _
  · exact .string _

namespace Envelope

/-- A place of a message of no more than one chunk is the first. -/
theorem eq_one_of_mem_places {n count : UInt32} (h : n ∈ places count) (hcount : ¬ 1 < count) :
    n = 1 := by
  obtain ⟨h₀, hle⟩ := not_or.mp (mem_places.mp h)
  have hn : n.toNat ≠ 0 := fun h => h₀ (UInt32.toNat_inj.mp h)
  rw [UInt32.not_lt, UInt32.le_iff_toNat_le] at hle hcount
  rw [UInt32.toNat_one] at hcount
  exact UInt32.toNat_inj.mp (by rw [UInt32.toNat_one]; omega)

/-- The value of a chunk is an object that carries it. -/
theorem exists_carries {c : Chunk} (h : c.sequence ∈ places c.count) :
    ∃ members, c.toJson = .object members ∧ Carries members c := by
  have hrange := range_iff.mp (mem_places.mp h)
  refine ⟨_, rfl, ?_⟩
  exact {
    noCommand := Json.lookup_eq_none_iff.mp rfl
    fragment := bind_string?_eq_some_iff.mp rfl
    count := bind_uint32?_eq_some_iff.mp (Json.uint32?_ofUInt32 c.count)
    count_pos := UInt32.le_trans hrange.1 hrange.2
    id := bind_uint32?_eq_some_iff.mp (Json.uint32?_ofUInt32 c.id.val)
    colony := .inl (bind_uint32?_eq_some_iff.mp (Json.uint32?_ofUInt32 c.colony.val))
    place :=
      ⟨fun _ => ⟨bind_uint32?_eq_some_iff.mp (Json.uint32?_ofUInt32 c.sequence), hrange⟩,
        fun hone => eq_one_of_mem_places h (by rw [hone]; decide)⟩
    direction := by
      rw [← bind_string?_eq_some_iff]
      change _ ↔ some c.direction.word = some "resp"
      cases c.direction <;> decide }

/-- **The document of a chunk reads back.** -/
theorem parse_document {c : Chunk} (h : c.sequence ∈ places c.count) :
    parse c.document = .ok (.chunk c) := by
  obtain ⟨members, hmembers, hcarries⟩ := exists_carries h
  have hraw := Json.parse_print c.printable_toJson
  rw [hmembers] at hraw
  rw [Chunk.document, hmembers]
  exact parse_eq_ok_iff.mpr ⟨members, hraw, .inr ⟨c, rfl, hcarries⟩⟩

end Envelope

/-! ### The fragments of a text -/

namespace Chunker

open String (utf8Len)

theorem toList_cut (limit : Nat) (done : List String) (fragment : List Char) (size : Nat)
    (cs : List Char) :
    (cut limit done fragment size cs).flatMap String.toList =
      done.reverse.flatMap String.toList ++ fragment.reverse ++ cs := by
  -- `done` and `fragment` hold what was passed over, and both arms of the cut keep it
  induction cs generalizing done fragment size with
  | nil => simp [cut]
  | cons c cs ih =>
      rw [cut]
      split <;> simp [ih]

/-- **No character is lost between the fragments.** -/
theorem join_split (chunker : Chunker) (payload : String) :
    String.join (chunker.split payload) = payload := by
  rw [← String.toList_inj, String.toList_join, split, toList_cut]
  rfl

/-- A fragment keeps to the limit, unless it is one character alone. -/
def Keeps (limit : Nat) (fragment : List Char) : Prop :=
  utf8Len fragment ≤ limit ∨ fragment.length = 1

theorem keeps_reverse {limit : Nat} {fragment : List Char} (h : Keeps limit fragment) :
    Keeps limit (String.ofList fragment.reverse).toList := by
  rwa [String.toList_ofList, Keeps, String.utf8Len_reverse, List.length_reverse]

theorem keeps_of_mem_cut {limit : Nat} {done : List String} {fragment : List Char}
    (hkeeps : Keeps limit fragment) (hdone : ∀ f ∈ done, Keeps limit f.toList) (cs : List Char) :
    ∀ f ∈ cut limit done fragment (utf8Len fragment) cs, Keeps limit f.toList := by
  induction cs generalizing done fragment with
  | nil =>
      intro f hf
      rw [cut, List.mem_reverse] at hf
      rcases List.mem_cons.mp hf with rfl | hf
      · exact keeps_reverse hkeeps
      · exact hdone f hf
  | cons c cs ih =>
      have hone : utf8Len [c] = c.utf8Size := Nat.zero_add _
      rw [cut]
      split
      · -- the fragment is full, and the next one starts with the character alone
        rw [← hone]
        refine ih (.inr rfl) fun f hf => ?_
        rcases List.mem_cons.mp hf with rfl | hf
        · exact keeps_reverse hkeeps
        · exact hdone f hf
      · next hroom =>
        rw [← String.utf8Len_cons]
        refine ih ?_ hdone
        by_cases hnil : fragment = []
        · subst hnil
          exact .inr rfl
        · refine .inl (Nat.le_of_not_lt fun hlt => hroom ⟨hnil, ?_⟩)
          rwa [String.utf8Len_cons] at hlt

/-- **Every fragment keeps to the limit**, unless it is one character. -/
theorem keeps_of_mem_split {chunker : Chunker} {payload fragment : String}
    (h : fragment ∈ chunker.split payload) : Keeps chunker.limit fragment.toList :=
  keeps_of_mem_cut (.inl (Nat.zero_le _)) (List.forall_mem_nil _) payload.toList fragment h

theorem length_cut_le (limit : Nat) (done : List String) (fragment : List Char) (size : Nat)
    (cs : List Char) :
    (cut limit done fragment size cs).length ≤ done.length + 1 + cs.length := by
  induction cs generalizing done fragment size with
  | nil => simp [cut]
  | cons c cs ih =>
      rw [cut, List.length_cons]
      split
      · have := ih (String.ofList fragment.reverse :: done) [c] c.utf8Size
        rw [List.length_cons] at this
        omega
      · have := ih done (c :: fragment) (size + c.utf8Size)
        omega

theorem length_le_utf8Len (cs : List Char) : cs.length ≤ utf8Len cs := by
  induction cs with
  | nil => exact Nat.le_refl 0
  | cons c cs ih =>
      have := c.utf8Size_pos
      rw [List.length_cons, String.utf8Len_cons]
      omega

/-- There are no more fragments than bytes, but for the fragment of an empty text. -/
theorem length_split_le (chunker : Chunker) (payload : String) :
    (chunker.split payload).length ≤ max 1 payload.utf8ByteSize := by
  rw [split, ← String.utf8Len_toList]
  cases payload.toList with
  | nil => simp [cut]
  | cons c cs =>
      -- the first character never ends a fragment
      rw [cut, if_neg (by simp)]
      have hcut := length_cut_le chunker.limit [] [c] (0 + c.utf8Size) cs
      have hbytes := length_le_utf8Len (c :: cs)
      simp only [List.length_nil, List.length_cons] at hcut hbytes
      omega

theorem cut_ne_nil (limit : Nat) (done : List String) (fragment : List Char) (size : Nat)
    (cs : List Char) : cut limit done fragment size cs ≠ [] := by
  induction cs generalizing done fragment size with
  | nil => simp [cut]
  | cons c cs ih =>
      rw [cut]
      split
      · exact ih _ _ _
      · exact ih _ _ _

/-- Every text has a fragment. -/
theorem split_ne_nil (chunker : Chunker) (payload : String) : chunker.split payload ≠ [] :=
  cut_ne_nil _ _ _ _ _

theorem cut_of_le {limit : Nat} {fragment cs : List Char} {size : Nat}
    (h : size + utf8Len cs ≤ limit) :
    cut limit [] fragment size cs = [String.ofList (fragment.reverse ++ cs)] := by
  induction cs generalizing fragment size with
  | nil => simp [cut]
  | cons c cs ih =>
      rw [String.utf8Len_cons] at h
      rw [cut, if_neg (by omega), ih (by omega)]
      simp

/-- A text within the limit is one fragment. -/
theorem split_of_le {chunker : Chunker} {payload : String}
    (h : payload.utf8ByteSize ≤ chunker.limit) : chunker.split payload = [payload] := by
  rw [split, cut_of_le (by rwa [Nat.zero_add, String.utf8Len_toList])]
  simp

/-- The chunk of the fragment at an index among `count`. -/
def chunkAt (colony : ColonyId) (id : MessageId) (direction : Direction) (count i : Nat)
    (fragment : String) : Chunk :=
  ⟨id, colony, direction, UInt32.ofNat count, UInt32.ofNat (i + 1), fragment⟩

/-- **A text with few enough fragments has a document for each.** -/
theorem encode_eq {chunker : Chunker} {payload : String}
    (h : (chunker.split payload).length < UInt32.size) (colony : ColonyId) (id : MessageId)
    (direction : Direction) :
    ∃ docs, chunker.encode colony id direction payload = .ok docs ∧
      ∃ hlen : docs.length = (chunker.split payload).length, ∀ i : Fin docs.length,
        docs.get i = (chunkAt colony id direction docs.length i
          ((chunker.split payload).get (i.cast hlen))).document := by
  let fragments := chunker.split payload
  let docs := (fragments.mapIdx (chunkAt colony id direction fragments.length)).map Chunk.document
  have hlen : docs.length = fragments.length := by simp [docs]
  refine ⟨docs, ?_, hlen, fun i => ?_⟩
  · simp only [encode, chunks, if_pos h, bind, Except.bind]
    rfl
  · simp [docs, fragments]

/-- A text with too many fragments has no documents. -/
theorem encode_of_size_le {chunker : Chunker} {payload : String}
    (h : UInt32.size ≤ (chunker.split payload).length) (colony : ColonyId) (id : MessageId)
    (direction : Direction) :
    chunker.encode colony id direction payload =
      .error (.tooManyChunks (chunker.split payload).length) := by
  simp only [encode, chunks, if_neg (Nat.not_lt.mpr h), bind, Except.bind]

end Chunker

end NativeMessaging
