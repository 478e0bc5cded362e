import NativeMessaging.Proofs.Frame.Stream

/-!
# Frame — the frames at the beginning of bytes

Which frame comes next is a matter of the bytes alone: `next` looks at all of them at once.

* `Source.exists_readFrame_eq`: a source that delivers gives the next frame of its bytes, however it
  cuts them into pieces.
* `next_eq_some_iff`: a text comes next exactly where the bytes begin with its frame and it fits.
* `exists_leading`: all bytes are the frames of some texts that fit, and then the end or no frame.
* `Leading.isPrefix`: there are no more such frames at the beginning than those.
-/

namespace NativeMessaging

namespace Frame

/-- **Four bytes are the header of the number that they spell.** -/
theorem header_ofHeader : ∀ {head : List UInt8}, head.length = headerSize →
    header (ofHeader head) = head
  | [a, b, c, d], _ => by
      have ha := a.toNat_lt
      have hb := b.toNat_lt
      have hc := c.toNat_lt
      have hd := d.toNat_lt
      simp only [header, ofHeader, List.cons.injEq, and_true, ← UInt8.toNat_inj,
        UInt8.toNat_ofNat']
      omega

theorem ofHeader_lt : ∀ {head : List UInt8}, head.length = headerSize →
    ofHeader head < UInt32.size
  | [a, b, c, d], _ => by
      have ha := a.toNat_lt
      have hb := b.toNat_lt
      have hc := c.toNat_lt
      have hd := d.toNat_lt
      simp only [ofHeader, UInt32.size]
      omega

/-- The frame with which bytes begin, and the bytes behind what is read of it. -/
def next (limit : Nat) (bytes : List UInt8) : Except Error (Option String) × List UInt8 :=
  let length := ofHeader (bytes.take headerSize)
  let body := bytes.drop headerSize
  if bytes = [] then (.ok none, [])
  else if bytes.length < headerSize then (.error (.truncated bytes.length headerSize), [])
  else if limit < length then (.error (.tooLarge length limit), body)
  else if body.length < length then (.error (.truncated body.length length), [])
  else
    match Text.Utf8.decode (body.take length) with
    | .ok text     => (.ok (some text), body.drop length)
    | .error fault => (.error (.invalidUtf8 fault), body.drop length)

/-- **A source that delivers gives the next frame of its bytes**, and is then at the bytes behind
what was read. -/
theorem Source.exists_readFrame_eq {source : Source} (h : source.Delivers) (limit : Nat) :
    ∃ source', source'.Delivers ∧ source'.bytes = (next limit source.bytes).2 ∧
      source.readFrame limit = ((next limit source.bytes).1, source') := by
  obtain ⟨behindHeader, hbehind, hbytes, hhead⟩ := exists_read h headerSize
  obtain ⟨behindText, hdelivers, hrest, htext⟩ :=
    exists_read hbehind (ofHeader (source.bytes.take headerSize))
  have hlength : (source.bytes.take headerSize).length = min headerSize source.bytes.length :=
    List.length_take
  have hne : source.bytes ≠ [] → source.bytes.take headerSize ≠ [] := by
    cases source.bytes <;> simp [headerSize]
  rw [hbytes] at hrest htext
  rw [readFrame, hhead, next]
  dsimp only
  by_cases hnil : source.bytes = []
  · rw [if_pos hnil, hnil]
    exact ⟨behindHeader, hbehind, by rw [hbytes, hnil]; rfl, rfl⟩
  rw [if_neg hnil]
  generalize source.bytes.take headerSize = head at *
  cases head with
  | nil => exact absurd rfl (hne hnil)
  | cons b bs =>
      dsimp only
      by_cases hshort : source.bytes.length < headerSize
      · have hhead' : (b :: bs).length = source.bytes.length := by omega
        rw [if_pos hshort, if_pos (hhead' ▸ hshort), hhead']
        exact ⟨behindHeader, hbehind, by rw [hbytes, List.drop_of_length_le (by omega)], rfl⟩
      have hfull : ¬ (b :: bs).length < headerSize := by omega
      rw [if_neg hshort, if_neg hfull]
      by_cases hlarge : limit < ofHeader (b :: bs)
      · rw [if_pos hlarge, if_pos hlarge]
        exact ⟨behindHeader, hbehind, hbytes, rfl⟩
      rw [if_neg hlarge, if_neg hlarge, htext]
      dsimp only
      generalize ofHeader (b :: bs) = length at *
      have htake : ((source.bytes.drop headerSize).take length).length =
          min length (source.bytes.drop headerSize).length := List.length_take
      by_cases hcut : (source.bytes.drop headerSize).length < length
      · rw [if_pos hcut, List.take_of_length_le (by omega), if_pos hcut]
        exact ⟨behindText, hdelivers, by rw [hrest, List.drop_of_length_le (by omega)], rfl⟩
      have hwhole : ¬ ((source.bytes.drop headerSize).take length).length < length := by omega
      rw [if_neg hcut, if_neg hwhole]
      cases Text.Utf8.decode ((source.bytes.drop headerSize).take length) with
      | ok text => exact ⟨behindText, hdelivers, hrest, rfl⟩
      | error fault => exact ⟨behindText, hdelivers, hrest, rfl⟩

/-- The text has a frame, and no more bytes than the limit. -/
structure Fits (limit : Nat) (text : String) : Prop where
  limit : text.utf8ByteSize ≤ limit
  size : text.utf8ByteSize < UInt32.size

/-- The frame of a text that fits comes next. -/
theorem next_append {limit : Nat} {text : String} (h : Fits limit text) (rest : List UInt8) :
    next limit (Frame.bytes text ++ rest) = (.ok (some text), rest) := by
  obtain ⟨hlimit, hsize⟩ := h
  have hlength : (Text.Utf8.encode text).length = text.utf8ByteSize :=
    Text.Utf8.length_encode text
  obtain ⟨htake, hdrop, hnil, hlong⟩ :=
    header_append text.utf8ByteSize (Text.Utf8.encode text ++ rest)
  have hcut : ¬ (Text.Utf8.encode text ++ rest).length < text.utf8ByteSize := by
    rw [List.length_append]
    omega
  rw [Frame.bytes, List.append_assoc, next, htake, hdrop, ofHeader_header hsize, if_neg hnil,
    if_neg hlong, if_neg (by omega), if_neg hcut, List.take_left' hlength,
    List.drop_left' hlength, Text.Utf8.decode_encode]

/-- A text that comes next fits, and the bytes begin with its frame. -/
theorem eq_append_of_next {limit : Nat} {bytes rest : List UInt8} {text : String}
    (h : next limit bytes = (.ok (some text), rest)) :
    Fits limit text ∧ bytes = Frame.bytes text ++ rest := by
  rw [next] at h
  split at h
  · cases h
  split at h
  · cases h
  next hshort =>
  split at h
  · cases h
  next hlarge =>
  split at h
  · cases h
  next hcut =>
  split at h
  · next text' hdecode =>
    obtain ⟨htext, rfl⟩ := Prod.mk.inj h
    obtain rfl := Option.some.inj (Except.ok.inj htext)
    have hhead : (bytes.take headerSize).length = headerSize := by
      rw [List.length_take]
      omega
    have hencode := Text.Utf8.encode_of_decode hdecode
    have hsize : text'.utf8ByteSize = ofHeader (bytes.take headerSize) := by
      rw [← Text.Utf8.length_encode, hencode, List.length_take]
      omega
    refine ⟨⟨by omega, hsize ▸ ofHeader_lt hhead⟩, ?_⟩
    rw [Frame.bytes, hencode, hsize, header_ofHeader hhead, List.append_assoc,
      List.take_append_drop, List.take_append_drop]
  · cases h

/-- **A text comes next** exactly where the bytes begin with its frame and it fits. -/
theorem next_eq_some_iff {limit : Nat} {bytes rest : List UInt8} {text : String} :
    next limit bytes = (.ok (some text), rest) ↔
      Fits limit text ∧ bytes = Frame.bytes text ++ rest := by
  constructor
  · exact eq_append_of_next
  · rintro ⟨hfits, rfl⟩
    exact next_append hfits rest

/-- Nothing comes next exactly where there are no bytes. -/
theorem next_eq_none_iff {limit : Nat} {bytes : List UInt8} :
    (next limit bytes).1 = .ok none ↔ bytes = [] := by
  constructor
  · intro h
    by_contra hnil
    rw [next, if_neg hnil] at h
    split at h
    · cases h
    split at h
    · cases h
    split at h
    · cases h
    split at h <;> cases h
  · rintro rfl
    rfl

/-! ### The longest sequence of frames -/

/-- The bytes are the frames of those texts, which fit, and then the end or no frame. -/
structure Leading (limit : Nat) (bytes : List UInt8) (texts : List String) (rest : List UInt8) :
    Prop where
  bytes : bytes = stream texts ++ rest
  fits : ∀ text ∈ texts, Fits limit text
  stops : rest = [] ∨ ∃ e, (next limit rest).1 = .error e

theorem stream_cons (text : String) (texts : List String) :
    stream (text :: texts) = Frame.bytes text ++ stream texts := List.flatMap_cons

/-- **All bytes are the frames of some texts that fit, and then the end or no frame.** -/
theorem exists_leading (limit : Nat) (bytes : List UInt8) :
    ∃ texts rest, Leading limit bytes texts rest := by
  induction hn : bytes.length using Nat.strongRecOn generalizing bytes with
  | _ n ih =>
      rcases hnext : next limit bytes with ⟨e | _ | text, rest⟩
      · exact ⟨[], bytes, rfl, nofun, .inr ⟨e, by rw [hnext]⟩⟩
      · exact ⟨[], bytes, rfl, nofun, .inl (next_eq_none_iff.mp (by rw [hnext]))⟩
      · obtain ⟨hfits, rfl⟩ := eq_append_of_next hnext
        have hshorter : rest.length < n := by
          have hframe : 0 < (Frame.bytes text).length := Nat.zero_lt_succ _
          rw [← hn, List.length_append]
          omega
        obtain ⟨texts, rest', rfl, htexts, hstops⟩ := ih _ hshorter rest rfl
        refine ⟨text :: texts, rest', ?_, List.forall_mem_cons.mpr ⟨hfits, htexts⟩, hstops⟩
        rw [stream_cons, List.append_assoc]

/-- **There are no more frames at the beginning than those.** -/
theorem Leading.isPrefix {limit : Nat} {bytes rest : List UInt8} {texts texts' : List String}
    (h : Leading limit bytes texts rest) (hfits : ∀ text ∈ texts', Fits limit text)
    (hbegins : stream texts' <+: bytes) : texts' <+: texts := by
  induction texts' generalizing bytes texts with
  | nil => exact List.nil_prefix
  | cons text' texts' ih =>
      obtain ⟨hfirst, hmore⟩ := List.forall_mem_cons.mp hfits
      obtain ⟨tail, htail⟩ := hbegins
      rw [stream_cons, List.append_assoc] at htail
      have hnext : next limit bytes = (.ok (some text'), stream texts' ++ tail) :=
        next_eq_some_iff.mpr ⟨hfirst, htail.symm⟩
      obtain ⟨hbytes, htexts, hstops⟩ := h
      cases texts with
      | nil =>
          -- where the texts end, no text comes next
          obtain rfl : bytes = rest := hbytes
          rcases hstops with rfl | ⟨e, he⟩
          · cases hnext
          · rw [hnext] at he
            cases he
      | cons text texts =>
          obtain ⟨hfits, hrestFits⟩ := List.forall_mem_cons.mp htexts
          rw [stream_cons, List.append_assoc] at hbytes
          have hnext' : next limit bytes = (.ok (some text), stream texts ++ rest) :=
            next_eq_some_iff.mpr ⟨hfits, hbytes⟩
          obtain ⟨htext, hrest⟩ := Prod.mk.inj (hnext.symm.trans hnext')
          obtain rfl := Option.some.inj (Except.ok.inj htext)
          exact List.cons_prefix_cons.mpr ⟨rfl, ih ⟨rfl, hrestFits, hstops⟩ hmore ⟨tail, hrest⟩⟩

end Frame

end NativeMessaging
