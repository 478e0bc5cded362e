import Mathlib.Data.List.Basic
import NativeMessaging.Frame.Reader
import NativeMessaging.Proofs.Text.Utf8

/-!
# Frame — a stream of frames reads back

A source *delivers* when it neither fails nor ends early: every call gives at least a byte while
there are bytes, or is interrupted (`Source.Delivers`).  How such a source cuts its bytes into
pieces does not matter.

* `Source.exists_read`: a call for bytes gives as many as there are, up to those asked for.
* `Source.exists_readFrame`: behind the bytes of a frame stands what stood behind the frame, and
  the text is the one that was framed.
* `Source.texts_stream`: the texts of a stream of frames are those that were framed.
-/

namespace NativeMessaging

namespace Frame

/-! ### The bytes of frames -/

/-- The bytes of the frame of a text. -/
def bytes (text : String) : List UInt8 := header text.utf8ByteSize ++ Text.Utf8.encode text

/-- The bytes of the frames of some texts. -/
def stream (texts : List String) : List UInt8 := texts.flatMap bytes

theorem encode_of_lt {text : String} (h : text.utf8ByteSize < UInt32.size) :
    encode text = .ok (bytes text) := by
  rw [encode, if_pos h, bytes]

theorem length_bytes (text : String) : (bytes text).length = headerSize + text.utf8ByteSize := by
  rw [bytes, List.length_append, Text.Utf8.length_encode]
  rfl

/-- A header, in front of other bytes. -/
theorem header_append (n : Nat) (rest : List UInt8) :
    (header n ++ rest).take headerSize = header n ∧ (header n ++ rest).drop headerSize = rest ∧
      header n ++ rest ≠ [] ∧ ¬ (header n ++ rest).length < headerSize := by
  have hfour : (header n).length = headerSize := rfl
  refine ⟨List.take_left' hfour, List.drop_left' hfour, List.cons_ne_nil _ _, ?_⟩
  rw [List.length_append]
  omega

/-- **A header spells its number.** -/
theorem ofHeader_header {n : Nat} (h : n < UInt32.size) : ofHeader (header n) = n := by
  rw [UInt32.size] at h
  simp only [header, ofHeader, UInt8.toNat_ofNat']
  omega

/-! ### Sources that deliver -/

/-- Every planned reply gives at least a byte, or is an interruption. -/
def Delivers (plan : List Reply) : Prop :=
  ∀ reply ∈ plan, reply = .interrupted ∨ ∃ n, reply = .upTo (n + 1)

theorem Delivers.tail {reply : Reply} {plan : List Reply} (h : Delivers (reply :: plan)) :
    Delivers plan := fun r hr => h r (List.mem_cons_of_mem _ hr)

/-- A piece of what is asked for, and the rest of what is asked for behind it. -/
theorem take_min_append (bytes : List UInt8) (n wanted : Nat) :
    let piece := bytes.take (min n wanted)
    piece ++ (bytes.drop piece.length).take (wanted - piece.length) = bytes.take wanted ∧
      (bytes.drop piece.length).drop (wanted - piece.length) = bytes.drop wanted := by
  intro piece
  have hlength : piece.length ≤ wanted := by
    rw [List.length_take]
    omega
  have hpiece : bytes.take piece.length = piece := by
    rw [List.length_take, ← List.take_eq_take_min]
  have hsum : piece.length + (wanted - piece.length) = wanted := by omega
  constructor
  · calc piece ++ (bytes.drop piece.length).take (wanted - piece.length)
        = bytes.take (piece.length + (wanted - piece.length)) := by rw [List.take_add, hpiece]
      _ = bytes.take wanted := by rw [hsum]
  · rw [List.drop_drop, hsum]

/-- A call that is answered in pieces gives what one answer would give. -/
theorem exists_readFull {plan : List Reply} (h : Delivers plan) (acc bytes : List UInt8)
    (wanted : Nat) :
    ∃ plan', Delivers plan' ∧
      readFull acc plan bytes wanted =
        (.ok (acc.reverse ++ bytes.take wanted), ⟨bytes.drop wanted, plan'⟩) := by
  induction plan generalizing acc bytes wanted with
  | nil => exact ⟨[], h, rfl⟩
  | cons reply plan ih =>
      rw [readFull.eq_def]
      dsimp only
      split
      · next hzero =>
        subst hzero
        exact ⟨reply :: plan, h, by rw [List.take_zero, List.append_nil, List.drop_zero]⟩
      · next hwanted =>
        rcases h reply (List.mem_cons_self ..) with rfl | ⟨n, rfl⟩
        · exact ih h.tail acc bytes wanted
        · dsimp only
          obtain ⟨htake, hdrop⟩ := take_min_append bytes (n + 1) wanted
          split
          · next hempty =>
            -- a call that gives nothing found nothing
            have hnil : bytes = [] := by
              rcases List.take_eq_nil_iff.mp (List.isEmpty_iff.mp hempty) with hmin | hnil
              · omega
              · exact hnil
            subst hnil
            exact ⟨plan, h.tail, by rw [List.take_nil, List.append_nil, List.drop_nil]⟩
          · obtain ⟨plan', hplan', hread⟩ := ih h.tail _ _ _
            refine ⟨plan', hplan', hread.trans ?_⟩
            rw [List.reverse_append, List.reverse_reverse, List.append_assoc, htake, hdrop]

namespace Source

/-- The source neither fails nor ends early. -/
def Delivers (source : Source) : Prop := Frame.Delivers source.plan

theorem exists_read {source : Source} (h : source.Delivers) (wanted : Nat) :
    ∃ source', source'.Delivers ∧ source'.bytes = source.bytes.drop wanted ∧
      source.read wanted = (.ok (source.bytes.take wanted), source') := by
  obtain ⟨plan', hplan', hread⟩ := exists_readFull h [] source.bytes wanted
  exact ⟨⟨source.bytes.drop wanted, plan'⟩, hplan', rfl, hread⟩

/-- **A frame reads back**, whatever stands behind it and however its bytes arrive. -/
theorem exists_readFrame {source : Source} (h : source.Delivers) {text : String}
    {rest : List UInt8} (hbytes : source.bytes = Frame.bytes text ++ rest) {limit : Nat}
    (hlimit : text.utf8ByteSize ≤ limit) (hsize : text.utf8ByteSize < UInt32.size) :
    ∃ source', source'.Delivers ∧ source'.bytes = rest ∧
      source.readFrame limit = (.ok (some text), source') := by
  obtain ⟨behindHeader, hbehind, hbehindBytes, hhead⟩ := exists_read h headerSize
  obtain ⟨behindText, hdelivers, hrest, htext⟩ := exists_read hbehind text.utf8ByteSize
  obtain ⟨htake, hdrop, -, -⟩ :=
    header_append text.utf8ByteSize (Text.Utf8.encode text ++ rest)
  have hlength : (Text.Utf8.encode text).length = text.utf8ByteSize := Text.Utf8.length_encode text
  rw [Frame.bytes, List.append_assoc] at hbytes
  rw [hbytes, htake] at hhead
  rw [hbytes, hdrop] at hbehindBytes
  rw [hbehindBytes, List.take_left' hlength] at htext
  rw [hbehindBytes, List.drop_left' hlength] at hrest
  refine ⟨behindText, hdelivers, hrest, ?_⟩
  have hheader : ¬ (header text.utf8ByteSize).length < headerSize := Nat.lt_irrefl 4
  have hshort : ¬ (Text.Utf8.encode text).length < text.utf8ByteSize := hlength ▸ Nat.lt_irrefl _
  rw [readFrame, hhead]
  change (if (header text.utf8ByteSize).length < headerSize then _ else _) = _
  rw [if_neg hheader, ofHeader_header hsize, if_neg (Nat.not_lt.mpr hlimit), htext]
  dsimp only
  rw [if_neg hshort, Text.Utf8.decode_encode]

/-- A source without bytes ends between two frames. -/
theorem exists_readFrame_nil {source : Source} (h : source.Delivers) (hbytes : source.bytes = [])
    (limit : Nat) : ∃ source', source.readFrame limit = (.ok none, source') := by
  obtain ⟨source', -, -, hread⟩ := exists_read h headerSize
  rw [hbytes, List.take_nil] at hread
  exact ⟨source', by rw [readFrame, hread]⟩

/-- The texts of all frames, where the source ends between two of them. -/
def texts (limit : Nat) : (rounds : Nat) → Source → Option (List String)
  | 0,          _      => none
  | rounds + 1, source =>
    match source.readFrame limit with
    | (.ok (some text), source) => (texts limit rounds source).map (text :: ·)
    | (.ok none, _)             => some []
    | (.error _, _)             => none

/-- **A stream of frames reads back**, however its bytes arrive. -/
theorem texts_stream {ts : List String} (hsize : ∀ text ∈ ts, text.utf8ByteSize < UInt32.size)
    {limit : Nat} (hlimit : UInt32.size ≤ limit) {rounds : Nat} (hrounds : ts.length < rounds)
    {source : Source} (h : source.Delivers) (hbytes : source.bytes = stream ts) :
    source.texts limit rounds = some ts := by
  induction ts generalizing rounds source with
  | nil =>
      obtain ⟨rounds, rfl⟩ : ∃ k, rounds = k + 1 := ⟨rounds - 1, by omega⟩
      obtain ⟨source', hread⟩ := exists_readFrame_nil h hbytes limit
      rw [texts, hread]
  | cons text ts ih =>
      obtain ⟨rounds, rfl⟩ : ∃ k, rounds = k + 1 := ⟨rounds - 1, by omega⟩
      have htext := hsize text (List.mem_cons_self ..)
      obtain ⟨source', hdelivers, hrest, hread⟩ := exists_readFrame h hbytes
        (Nat.le_of_lt (Nat.lt_of_lt_of_le htext hlimit)) htext
      rw [texts, hread]
      dsimp only
      rw [ih (fun t ht => hsize t (List.mem_cons_of_mem _ ht)) (by simpa using hrounds) hdelivers
        hrest]
      rfl

end Source

/-- A stream has more bytes than frames. -/
theorem length_le_stream (ts : List String) : ts.length ≤ (stream ts).length := by
  induction ts with
  | nil => exact Nat.le_refl 0
  | cons text ts ih =>
      have hfour : headerSize = 4 := rfl
      have hcons : stream (text :: ts) = bytes text ++ stream ts := List.flatMap_cons
      rw [hcons, List.length_append, length_bytes, List.length_cons]
      omega

end Frame

end NativeMessaging
