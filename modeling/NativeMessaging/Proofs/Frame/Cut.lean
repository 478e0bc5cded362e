import NativeMessaging.Proofs.Frame.Reading

/-!
# Frame — a stream of frames that is cut

The frames of some texts, cut off at any byte, read back as the texts whose frames are whole; then
comes the end where the cut falls between two frames, and otherwise the report that a frame is cut
short, never another text.  And whatever a source does, the bytes that a text took from it are the
frame of that text.

* `exists_reads_cut`: a part of a frame reads as a frame that is cut short.
* `Source.exists_gives_take`: what the first bytes of a stream of frames read as.
* `Source.bytes_of_gives`: consecutive texts consume their frames, of any source.
* `Source.cut_and_consumed`: both.
-/

namespace NativeMessaging.Frame

/-- Consecutive calls that give those texts. -/
inductive Source.Gives (limit : Nat) : Source → List String → Source → Prop where
  | refl (source : Source) : Gives limit source [] source
  | more {source behind behind' : Source} {text : String} {texts : List String}
      (h : source.readFrame limit = (.ok (some text), behind))
      (t : Gives limit behind texts behind') : Gives limit source (text :: texts) behind'

/-- The position is where one of the frames begins, or where the last one ends. -/
def IsBoundary (frames : List (List UInt8)) (position : Nat) : Prop :=
  ∃ k, position = (frames.take k).flatten.length

/-! ### A cut -/

theorem isBoundary_zero (frames : List (List UInt8)) : IsBoundary frames 0 := ⟨0, rfl⟩

theorem isBoundary_cons {frame : List UInt8} {frames : List (List UInt8)} {position : Nat} :
    IsBoundary (frame :: frames) position ↔
      position = 0 ∨ frame.length ≤ position ∧ IsBoundary frames (position - frame.length) := by
  constructor
  · rintro ⟨_ | k, hk⟩
    · exact .inl hk
    · rw [List.take_succ_cons, List.flatten_cons, List.length_append] at hk
      exact .inr ⟨by omega, k, by omega⟩
  · rintro (rfl | ⟨hle, k, hk⟩)
    · exact isBoundary_zero _
    · refine ⟨k + 1, ?_⟩
      rw [List.take_succ_cons, List.flatten_cons, List.length_append]
      omega

theorem mapM_encode {texts : List String} (h : ∀ text ∈ texts, text.utf8ByteSize < UInt32.size) :
    texts.mapM encode = .ok (texts.map Frame.bytes) := by
  induction texts with
  | nil => rfl
  | cons text texts ih =>
      obtain ⟨hfirst, hmore⟩ := List.forall_mem_cons.mp h
      rw [List.mapM_cons, encode_of_lt hfirst, ih hmore]
      rfl

/-- **A part of a frame is a frame that is cut short.** -/
theorem exists_reads_cut {limit : Nat} {text : String} (h : Fits limit text) {n : Nat}
    (hpos : 0 < n) (hn : n < (Frame.bytes text).length) :
    ∃ read expected consumed,
      Reads limit ((Frame.bytes text).take n) (.error (.truncated read expected)) consumed := by
  have hlength : ((Frame.bytes text).take n).length = n := by
    rw [List.length_take]
    omega
  by_cases hheader : n < headerSize
  · refine ⟨_, _, _, .cutHeader ?_ (hlength.symm ▸ hheader)⟩
    exact List.ne_nil_of_length_pos (hlength.symm ▸ hpos)
  · have hfour : (header text.utf8ByteSize).length = headerSize := rfl
    have htake : (Frame.bytes text).take n =
        header text.utf8ByteSize ++ (Text.Utf8.encode text).take (n - headerSize) := by
      rw [Frame.bytes, List.take_append, List.take_of_length_le (by omega), hfour]
    rw [htake]
    refine ⟨_, _, _, .cutText h.size h.limit ?_⟩
    rw [length_bytes] at hn
    rw [List.length_take, Text.Utf8.length_encode]
    omega

/-- What a reader gives of the first `position` bytes of the frames of some texts: those `k` texts
whose frames end there or before, and then the end or the report of a frame that is cut short. -/
structure Source.GivesWhole (limit : Nat) (texts : List String) (frames : List (List UInt8))
    (position k : Nat) (source behind : Source) : Prop where
  whole : ∀ i < texts.length, i < k ↔ (frames.take (i + 1)).flatten.length ≤ position
  gives : source.Gives limit (texts.take k) behind
  ended : IsBoundary frames position → (behind.readFrame limit).1 = .ok none
  broken : ¬ IsBoundary frames position →
    ∃ read expected, (behind.readFrame limit).1 = .error (.truncated read expected)

/-- **The first bytes of a stream of frames** read as the texts whose frames are whole. -/
theorem Source.exists_gives_take {limit : Nat} {texts : List String}
    (hfits : ∀ text ∈ texts, Fits limit text) {position : Nat}
    (hposition : position ≤ (texts.map Frame.bytes).flatten.length) {source : Source}
    (h : source.Delivers) (hbytes : source.bytes = (texts.map Frame.bytes).flatten.take position) :
    ∃ k behind, GivesWhole limit texts (texts.map Frame.bytes) position k source behind := by
  induction texts generalizing position source with
  | nil =>
      obtain rfl : position = 0 := Nat.le_zero.mp hposition
      obtain ⟨behind, hread⟩ := exists_readFrame_nil h hbytes limit
      exact ⟨0, source, nofun, .refl source, fun _ => by rw [hread],
        fun hno => absurd (isBoundary_zero _) hno⟩
  | cons text texts ih =>
      obtain ⟨hfirst, hmore⟩ := List.forall_mem_cons.mp hfits
      have hframe := length_bytes text
      have hfour : headerSize = 4 := rfl
      rw [List.map_cons, List.flatten_cons] at hbytes hposition
      rw [List.map_cons]
      by_cases hwhole : (Frame.bytes text).length ≤ position
      · -- the first frame is whole, and the rest is cut so many bytes earlier
        rw [List.take_append, List.take_of_length_le hwhole] at hbytes
        rw [List.length_append] at hposition
        obtain ⟨source₁, h₁, hbytes₁, hread⟩ :=
          exists_readFrame h hbytes hfirst.limit hfirst.size
        obtain ⟨k, behind, hwhole', hgives, hended, hbroken⟩ :=
          ih hmore (by omega) h₁ hbytes₁
        have hboundary : IsBoundary (Frame.bytes text :: texts.map Frame.bytes) position ↔
            IsBoundary (texts.map Frame.bytes) (position - (Frame.bytes text).length) := by
          rw [isBoundary_cons]
          exact ⟨fun hb => (hb.resolve_left (by omega)).2, fun hb => .inr ⟨hwhole, hb⟩⟩
        refine ⟨k + 1, behind, fun i hi => ?_, .more hread hgives, fun hb => hended (hboundary.mp hb),
          fun hb => hbroken (mt hboundary.mpr hb)⟩
        rw [List.take_succ_cons, List.flatten_cons, List.length_append]
        cases i with
        | zero => simpa using hwhole
        | succ i =>
            have hi' := hwhole' i (Nat.lt_of_succ_lt_succ hi)
            omega
      · rw [List.take_append_of_le_length (by omega)] at hbytes
        have hnone : ∀ i < (text :: texts).length, i < 0 ↔
            ((Frame.bytes text :: texts.map Frame.bytes).take (i + 1)).flatten.length ≤
              position := by
          intro i _
          rw [List.take_succ_cons, List.flatten_cons, List.length_append]
          omega
        by_cases hzero : position = 0
        · subst hzero
          obtain ⟨behind, hread⟩ := exists_readFrame_nil h hbytes limit
          exact ⟨0, source, hnone, .refl source, fun _ => by rw [hread],
            fun hno => absurd (isBoundary_zero _) hno⟩
        · obtain ⟨read, expected, consumed, hreads⟩ :=
            exists_reads_cut hfirst (Nat.pos_of_ne_zero hzero) (Nat.lt_of_not_le hwhole)
          obtain ⟨behind, -, -, hread⟩ := readFrame_eq h (hbytes ▸ hreads)
          refine ⟨0, source, hnone, .refl source, fun hb => ?_, fun _ => ?_⟩
          · rcases isBoundary_cons.mp hb with hb | ⟨hb, -⟩
            · exact absurd hb hzero
            · exact absurd hb hwhole
          · exact ⟨read, expected, by rw [hread]⟩

/-! ### What texts consume -/

/-- What is read stood in front of what is left, and was asked for. -/
theorem eq_append_of_readFull {acc bytes got : List UInt8} {plan : List Reply} {wanted : Nat}
    {behind : Source} (h : readFull acc plan bytes wanted = (.ok got, behind)) :
    ∃ piece, got = acc.reverse ++ piece ∧ bytes = piece ++ behind.bytes ∧
      piece.length ≤ wanted := by
  induction plan generalizing acc bytes wanted with
  | nil =>
      obtain ⟨hgot, rfl⟩ := Prod.mk.inj h
      obtain rfl := Except.ok.inj hgot
      exact ⟨bytes.take wanted, rfl, (List.take_append_drop ..).symm, List.length_take_le ..⟩
  | cons reply plan ih =>
      rw [readFull.eq_def] at h
      dsimp only at h
      split at h
      · obtain ⟨hgot, rfl⟩ := Prod.mk.inj h
        obtain rfl := Except.ok.inj hgot
        exact ⟨[], (List.append_nil _).symm, rfl, Nat.zero_le _⟩
      · cases reply with
        | interrupted => exact ih h
        | failed reason => cases (Prod.mk.inj h).1
        | upTo n =>
            dsimp only at h
            split at h
            · obtain ⟨hgot, rfl⟩ := Prod.mk.inj h
              obtain rfl := Except.ok.inj hgot
              exact ⟨[], (List.append_nil _).symm, rfl, Nat.zero_le _⟩
            · obtain ⟨piece, rfl, hbytes, hlength⟩ := ih h
              have hsplit : bytes.take (min n wanted) ++
                  bytes.drop (bytes.take (min n wanted)).length = bytes :=
                List.prefix_iff_eq_append.mp (List.take_prefix _ _)
              refine ⟨bytes.take (min n wanted) ++ piece, ?_, ?_, ?_⟩
              · rw [List.reverse_append, List.reverse_reverse, List.append_assoc]
              · rw [List.append_assoc, ← hbytes, hsplit]
              · have hpiece : (bytes.take (min n wanted)).length ≤ wanted := by
                  rw [List.length_take]
                  omega
                rw [List.length_append]
                omega

/-- A text is read of its frame, whatever the source does. -/
theorem Source.eq_bytes_of_readFrame {limit : Nat} {source behind : Source} {text : String}
    (h : source.readFrame limit = (.ok (some text), behind)) :
    text.utf8ByteSize < UInt32.size ∧ source.bytes = Frame.bytes text ++ behind.bytes := by
  rw [readFrame] at h
  split at h
  · cases (Prod.mk.inj h).1
  · cases (Prod.mk.inj h).1
  next head source₁ _ hhead =>
  obtain ⟨piece, hpiece, hbytes, hfour⟩ := eq_append_of_readFull hhead
  obtain rfl : head = piece := hpiece
  dsimp only at h
  split at h
  · cases (Prod.mk.inj h).1
  next hlong =>
  have hlength : head.length = headerSize := by omega
  split at h
  · cases (Prod.mk.inj h).1
  split at h
  · cases (Prod.mk.inj h).1
  next body source₂ hbody =>
  obtain ⟨piece, hpiece, hbytes₁, hwanted⟩ := eq_append_of_readFull hbody
  obtain rfl : body = piece := hpiece
  split at h
  · cases (Prod.mk.inj h).1
  next hwhole =>
  split at h
  next text' hdecode =>
    obtain ⟨htext, rfl⟩ := Prod.mk.inj h
    obtain rfl := Option.some.inj (Except.ok.inj htext)
    obtain rfl := Text.Utf8.encode_of_decode hdecode
    rw [Text.Utf8.length_encode] at hwanted hwhole
    have hsize : text'.utf8ByteSize = ofHeader head := by omega
    refine ⟨hsize ▸ ofHeader_lt hlength, ?_⟩
    rw [hbytes, hbytes₁, Frame.bytes, hsize, header_ofHeader hlength, List.append_assoc]
  · cases (Prod.mk.inj h).1

/-- **Consecutive texts consume their frames**, and nothing else. -/
theorem Source.bytes_of_gives {limit : Nat} {source behind : Source} {texts : List String}
    (h : source.Gives limit texts behind) :
    (∀ text ∈ texts, text.utf8ByteSize < UInt32.size) ∧
      source.bytes = (texts.map Frame.bytes).flatten ++ behind.bytes := by
  induction h with
  | refl source => exact ⟨List.forall_mem_nil _, rfl⟩
  | more hread _ ih =>
      obtain ⟨hsize, hbytes⟩ := eq_bytes_of_readFrame hread
      obtain ⟨hmore, hrest⟩ := ih
      refine ⟨List.forall_mem_cons.mpr ⟨hsize, hmore⟩, ?_⟩
      rw [hbytes, hrest, List.map_cons, List.flatten_cons, List.append_assoc]

/-- **A cut stream never gives a wrong text.**  Of the frames of texts that fit, any number of bytes
from the beginning read as the texts whose frames are whole, in order, and then as the end where the
cut falls between frames, and as a frame that is cut short elsewhere.  Conversely, whatever the
bytes are, those that consecutive texts consume are the frames of these texts. -/
theorem Source.cut_and_consumed (limit : Nat) :
    (∀ texts : List String,
      (∀ text ∈ texts, text.utf8ByteSize ≤ min limit (UInt32.size - 1)) →
      ∃ frames, texts.mapM encode = .ok frames ∧
        ∀ position ≤ frames.flatten.length, ∀ source : Source, source.Delivers →
          source.bytes = frames.flatten.take position →
          ∃ k behind, GivesWhole limit texts frames position k source behind) ∧
    ∀ (source behind : Source) (texts : List String), source.Gives limit texts behind →
      ∃ frames, texts.mapM encode = .ok frames ∧
        source.bytes = frames.flatten ++ behind.bytes := by
  have hlast : UInt32.size - 1 < UInt32.size := by decide
  refine ⟨fun texts hsize => ?_, fun source behind texts h => ?_⟩
  · have hfits : ∀ text ∈ texts, Fits limit text := fun text htext =>
      ⟨Nat.le_trans (hsize text htext) (Nat.min_le_left ..),
        Nat.lt_of_le_of_lt (Nat.le_trans (hsize text htext) (Nat.min_le_right ..)) hlast⟩
    refine ⟨_, mapM_encode fun text htext => (hfits text htext).size, ?_⟩
    intro position hposition source h hbytes
    exact exists_gives_take hfits hposition h hbytes
  · obtain ⟨hsize, hbytes⟩ := bytes_of_gives h
    exact ⟨_, mapM_encode hsize, hbytes⟩

/-- An empty text, and another one whose last byte is cut off. -/
def clipped : Source :=
  ⟨((["", "é"].map Frame.bytes).flatten).take 9, [.upTo 3, .interrupted, .upTo 1, .upTo 2]⟩

/-- The empty text is read and the other one is not; what was read is the frame of the empty text. -/
theorem Source.cut_and_consumed_clipped :
    (∀ text ∈ ["", "é"], text.utf8ByteSize ≤ min 2 (UInt32.size - 1)) ∧ clipped.Delivers ∧
      (∃ frames k behind, ["", "é"].mapM encode = .ok frames ∧ 9 ≤ frames.flatten.length ∧
        clipped.bytes = frames.flatten.take 9 ∧ GivesWhole 2 ["", "é"] frames 9 k clipped behind) ∧
      ∃ frames behind, clipped.Gives 2 [""] behind ∧ [""].mapM encode = .ok frames ∧
        clipped.bytes = frames.flatten ++ behind.bytes := by
  have hsize : ∀ text ∈ ["", "é"], text.utf8ByteSize ≤ min 2 (UInt32.size - 1) := by decide
  have hdelivers : clipped.Delivers := by simp [clipped, Source.Delivers, Frame.Delivers]
  refine ⟨hsize, hdelivers, ?_, ?_⟩
  · obtain ⟨frames, hframes, hcut⟩ := (cut_and_consumed 2).1 ["", "é"] hsize
    obtain rfl : ["", "é"].map Frame.bytes = frames := Except.ok.inj hframes
    have hlong : 9 ≤ (["", "é"].map Frame.bytes).flatten.length := by decide +kernel
    obtain ⟨k, behind, hgives⟩ := hcut 9 hlong clipped hdelivers rfl
    exact ⟨_, k, behind, hframes, hlong, rfl, hgives⟩
  · have hgives : clipped.Gives 2 [""] (clipped.readFrame 2).2 := .more (by decide +kernel) (.refl _)
    obtain ⟨frames, hframes, hbytes⟩ := (cut_and_consumed 2).2 _ _ _ hgives
    exact ⟨frames, _, hgives, hframes, hbytes⟩

end NativeMessaging.Frame
