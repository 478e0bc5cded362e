import NativeMessaging.Proofs.Frame.Decoder

/-!
# Frame — what consecutive calls read

A reader that goes on after errors gives one result per call, and every call consumes some of the
bytes.  `Reads` says, for each form that the bytes left may have, what one call gives and how many
bytes it consumes; it knows the bytes alone, and takes frames in the form in which they are written.

* `Reads.next_eq`, `exists_reads`, `Reads.unique`: what one call gives is determined by the bytes.
* `Source.readings_eq_iff`: whatever the pieces in which a source delivers its bytes, the results of
  its calls and the bytes consumed behind each are those that `Reads` asks for.
-/

namespace NativeMessaging.Frame

/-- What one call gives where those bytes are left, and how many of them it consumes: the end, where
there are none; a header that is cut short; the header of a frame beyond the limit, which alone is
consumed; a text that is cut short; a text; or a frame of bytes that spell no text. -/
inductive Reads (limit : Nat) : List UInt8 → Except Error (Option String) → Nat → Prop where
  | nothing : Reads limit [] (.ok none) 0
  | cutHeader {bytes : List UInt8} (hsome : bytes ≠ []) (hfew : bytes.length < headerSize) :
      Reads limit bytes (.error (.truncated bytes.length headerSize)) bytes.length
  | oversize {n : Nat} (hsize : n < UInt32.size) (hlarge : limit < n) (rest : List UInt8) :
      Reads limit (header n ++ rest) (.error (.tooLarge n limit)) headerSize
  | cutText {n : Nat} {rest : List UInt8} (hsize : n < UInt32.size) (hlimit : n ≤ limit)
      (hfew : rest.length < n) :
      Reads limit (header n ++ rest) (.error (.truncated rest.length n)) (headerSize + rest.length)
  | text {text : String} (h : Fits limit text) (rest : List UInt8) :
      Reads limit (header text.utf8ByteSize ++ (Text.Utf8.encode text ++ rest)) (.ok (some text))
        (headerSize + text.utf8ByteSize)
  | noText {body : List UInt8} {fault : Text.Utf8.Fault} (hsize : body.length < UInt32.size)
      (hlimit : body.length ≤ limit) (hnone : ∀ text, Text.Utf8.encode text ≠ body)
      (hfault : Text.Utf8.decode body = .error fault) (rest : List UInt8) :
      Reads limit (header body.length ++ (body ++ rest)) (.error (.invalidUtf8 fault))
        (headerSize + body.length)

/-- What consecutive calls give from a position in the bytes on, each with its position behind. -/
inductive ReadsAll (limit : Nat) (bytes : List UInt8) :
    Nat → List (Except Error (Option String) × Nat) → Prop where
  | nil (position : Nat) : ReadsAll limit bytes position []
  | cons {position consumed : Nat} {result : Except Error (Option String)}
      {results : List (Except Error (Option String) × Nat)}
      (h : Reads limit (bytes.drop position) result consumed)
      (t : ReadsAll limit bytes (position + consumed) results) :
      ReadsAll limit bytes position ((result, position + consumed) :: results)

/-- The results of consecutive calls, each with the position of the source behind it, where it was
at `position` before the first of them. -/
def Source.readings (limit : Nat) :
    (calls position : Nat) → Source → List (Except Error (Option String) × Nat)
  | 0,         _,        _      => []
  | calls + 1, position, source =>
    let (result, behind) := source.readFrame limit
    let position := position + (source.bytes.length - behind.bytes.length)
    (result, position) :: readings limit calls position behind

/-! ### One call -/

/-- What `Reads` says comes next. -/
theorem Reads.next_eq {limit : Nat} {bytes : List UInt8} {result : Except Error (Option String)}
    {consumed : Nat} (h : Reads limit bytes result consumed) :
    consumed ≤ bytes.length ∧ next limit bytes = (result, bytes.drop consumed) := by
  cases h with
  | nothing => exact ⟨Nat.zero_le _, rfl⟩
  | cutHeader hsome hfew =>
      refine ⟨Nat.le_refl _, ?_⟩
      rw [next, if_neg hsome, if_pos hfew, List.drop_length]
  | @oversize n hsize hlarge rest =>
      obtain ⟨htake, hdrop, hnil, hlong⟩ := header_append n rest
      refine ⟨Nat.le_of_not_lt hlong, ?_⟩
      rw [next, htake, hdrop, ofHeader_header hsize, if_neg hnil, if_neg hlong, if_pos hlarge]
  | @cutText n rest hsize hlimit hfew =>
      obtain ⟨htake, hdrop, hnil, hlong⟩ := header_append n rest
      have hall : headerSize + rest.length = (header n ++ rest).length := by
        rw [List.length_append]
        rfl
      refine ⟨Nat.le_of_eq hall, ?_⟩
      rw [next, htake, hdrop, ofHeader_header hsize, if_neg hnil, if_neg hlong,
        if_neg (Nat.not_lt.mpr hlimit), if_pos hfew, hall, List.drop_length]
  | @text text hfits rest =>
      have hframe := length_bytes text
      rw [← List.append_assoc]
      change _ ≤ (Frame.bytes text ++ rest).length ∧ next limit (Frame.bytes text ++ rest) = _
      refine ⟨?_, ?_⟩
      · rw [List.length_append, hframe]
        omega
      · rw [next_append hfits, ← hframe]
        change _ = (_, (Frame.bytes text ++ rest).drop _)
        rw [List.drop_left]
  | @noText body fault hsize hlimit hnone hfault rest =>
      obtain ⟨htake, hdrop, hnil, hlong⟩ := header_append body.length (body ++ rest)
      have hcut : ¬ (body ++ rest).length < body.length := by
        rw [List.length_append]
        omega
      refine ⟨?_, ?_⟩
      · rw [List.length_append, List.length_append]
        exact Nat.add_le_add_left (Nat.le_add_right _ _) _
      · rw [next, htake, hdrop, ofHeader_header hsize, if_neg hnil, if_neg hlong,
          if_neg (Nat.not_lt.mpr hlimit), if_neg hcut, List.take_left' rfl, hfault]
        dsimp only
        rw [← List.drop_drop, hdrop]

/-- Whatever the bytes are, a call gives something. -/
theorem exists_reads (limit : Nat) (bytes : List UInt8) :
    ∃ result consumed, Reads limit bytes result consumed := by
  by_cases hnil : bytes = []
  · subst hnil
    exact ⟨_, _, .nothing⟩
  by_cases hshort : bytes.length < headerSize
  · exact ⟨_, _, .cutHeader hnil hshort⟩
  have hfour : (bytes.take headerSize).length = headerSize := by
    rw [List.length_take]
    omega
  -- all other bytes begin with the header of the number that four of them spell
  obtain ⟨n, body, hsize, rfl⟩ : ∃ n body, n < UInt32.size ∧ bytes = header n ++ body :=
    ⟨ofHeader (bytes.take headerSize), bytes.drop headerSize, ofHeader_lt hfour, by
      rw [header_ofHeader hfour, List.take_append_drop]⟩
  by_cases hlarge : limit < n
  · exact ⟨_, _, .oversize hsize hlarge body⟩
  by_cases hcut : body.length < n
  · exact ⟨_, _, .cutText hsize (Nat.le_of_not_lt hlarge) hcut⟩
  obtain ⟨piece, rest, rfl, rfl⟩ : ∃ piece rest, body = piece ++ rest ∧ n = piece.length :=
    ⟨body.take n, body.drop n, (List.take_append_drop n body).symm, by
      rw [List.length_take]
      omega⟩
  cases hdecode : Text.Utf8.decode piece with
  | ok text =>
      obtain rfl := Text.Utf8.encode_of_decode hdecode
      exact ⟨_, _, .text ⟨Nat.le_of_not_lt hlarge, hsize⟩ rest⟩
  | error fault =>
      refine ⟨_, _, .noText hsize (Nat.le_of_not_lt hlarge) (fun text htext => ?_) hdecode rest⟩
      rw [← htext, Text.Utf8.decode_encode] at hdecode
      cases hdecode

/-- **Only one thing can be read.** -/
theorem Reads.unique {limit : Nat} {bytes : List UInt8} {r r' : Except Error (Option String)}
    {n n' : Nat} (h : Reads limit bytes r n) (h' : Reads limit bytes r' n') : r = r' ∧ n = n' := by
  obtain ⟨hle, hnext⟩ := h.next_eq
  obtain ⟨hle', hnext'⟩ := h'.next_eq
  obtain ⟨hresult, hdrop⟩ := Prod.mk.inj (hnext.symm.trans hnext')
  have hlength := congrArg List.length hdrop
  rw [List.length_drop, List.length_drop] at hlength
  exact ⟨hresult, by omega⟩

/-- A source that delivers reads what its bytes ask for, and no more of them. -/
theorem Source.readFrame_eq {source : Source} (h : source.Delivers) {limit : Nat}
    {result : Except Error (Option String)} {consumed : Nat}
    (hreads : Reads limit source.bytes result consumed) :
    ∃ behind, behind.Delivers ∧ behind.bytes = source.bytes.drop consumed ∧
      source.readFrame limit = (result, behind) := by
  obtain ⟨behind, hbehind, hbytes, hread⟩ := exists_readFrame_eq h limit
  rw [hreads.next_eq.2] at hbytes hread
  exact ⟨behind, hbehind, hbytes, hread⟩

/-! ### Consecutive calls -/

theorem ReadsAll.unique {limit : Nat} {bytes : List UInt8} {position : Nat}
    {results results' : List (Except Error (Option String) × Nat)}
    (h : ReadsAll limit bytes position results) (h' : ReadsAll limit bytes position results')
    (hlength : results.length = results'.length) : results = results' := by
  induction h generalizing results' with
  | nil => exact (List.length_eq_zero_iff.mp hlength.symm).symm
  | cons hread _ ih =>
      cases h' with
      | nil => cases hlength
      | cons hread' hmore' =>
          obtain ⟨rfl, rfl⟩ := hread.unique hread'
          rw [ih hmore' (Nat.succ.inj hlength)]

theorem Source.length_readings (limit calls position : Nat) (source : Source) :
    (source.readings limit calls position).length = calls := by
  induction calls generalizing position source with
  | zero => rfl
  | succ calls ih => rw [readings, List.length_cons, ih]

/-- The calls of a source that delivers read its bytes, one behind the other. -/
theorem Source.readsAll_readings {bytes : List UInt8} {position : Nat} {source : Source}
    (h : source.Delivers) (hbytes : source.bytes = bytes.drop position) (limit calls : Nat) :
    ReadsAll limit bytes position (source.readings limit calls position) := by
  induction calls generalizing position source with
  | zero => exact .nil position
  | succ calls ih =>
      obtain ⟨result, consumed, hreads⟩ := exists_reads limit source.bytes
      obtain ⟨behind, hdelivers, hbehind, hread⟩ := readFrame_eq h hreads
      have hconsumed : source.bytes.length - behind.bytes.length = consumed := by
        have hle := hreads.next_eq.1
        rw [hbehind, List.length_drop]
        omega
      have hdrop : behind.bytes = bytes.drop (position + consumed) := by
        rw [hbehind, hbytes, List.drop_drop]
      rw [readings, hread]
      dsimp only
      rw [hconsumed]
      exact .cons (hbytes ▸ hreads) (ih hdelivers hdrop)

/-- **Reading does not depend on the pieces.**  Of a source that neither fails nor ends early,
however it cuts its bytes and however often it is interrupted, any number of calls, also behind
errors, give what its bytes ask for, and consume as many of them. -/
theorem Source.readings_eq_iff {source : Source} (h : source.Delivers) (limit calls : Nat)
    (results : List (Except Error (Option String) × Nat)) :
    source.readings limit calls 0 = results ↔
      results.length = calls ∧ ReadsAll limit source.bytes 0 results := by
  have hall : ReadsAll limit source.bytes 0 (source.readings limit calls 0) :=
    readsAll_readings h rfl limit calls
  have hlength := length_readings limit calls 0 source
  constructor
  · rintro rfl
    exact ⟨hlength, hall⟩
  · rintro ⟨hcalls, hresults⟩
    exact hall.unique hresults (hlength.trans hcalls.symm)

/-- A frame beyond the limit, whose text is then read as frames: one that is empty, one whose bytes
are no text, and one with a character that arrives in two pieces; and then half a header. -/
def tattered : Source :=
  ⟨header 1000 ++ header 0 ++ header 1 ++ [255] ++ Frame.bytes "é" ++ [7, 0],
    [.upTo 1, .interrupted, .upTo 2, .upTo 9, .interrupted, .upTo 4, .upTo 4, .upTo 1, .upTo 3,
      .upTo 1, .upTo 1, .interrupted, .upTo 5, .upTo 1]⟩

/-- Seven calls read six things of it, and then the end again. -/
theorem Source.readings_eq_iff_tattered :
    let results : List (Except Error (Option String) × Nat) :=
      [(.error (.tooLarge 1000 16), 4), (.ok (some ""), 8), (.error (.invalidUtf8 ⟨0, some 1⟩), 13),
        (.ok (some "é"), 19), (.error (.truncated 2 4), 21), (.ok none, 21), (.ok none, 21)]
    tattered.Delivers ∧ tattered.readings 16 7 0 = results ∧
      (tattered.readings 16 7 0 = results ↔
        results.length = 7 ∧ ReadsAll 16 tattered.bytes 0 results) := by
  have hdelivers : tattered.Delivers := by simp [tattered, Source.Delivers, Frame.Delivers]
  exact ⟨hdelivers, by decide +kernel, readings_eq_iff hdelivers 16 7 _⟩

end NativeMessaging.Frame
