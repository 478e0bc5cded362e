import NativeMessaging.Json.Printer
import NativeMessaging.Json.Token

/-!
# Json — the small parts of a text read back

* `stringBody_quote`: behind its opening quotation mark, the printed form of a string reads back as
  that string.
* `number_natText`: the digits of a natural number below `2 ^ 64` read back as that number.

Both are stated with the rest of the text behind the part.  A string says itself where it ends; the
digits of a number do so only where the rest does not go on like a number (`Stops`).
-/

namespace NativeMessaging.Json

/-! ### Strings -/

theorem hexValue?_hexDigit : ∀ n, n < 16 → Token.hexValue? (hexDigit n) = some n := by
  decide

theorem quote_append (s : String) (rest : List Char) :
    quote s ++ rest = '"' :: (s.toList.flatMap escape ++ '"' :: rest) := by
  simp [quote]

namespace Token

theorem isSpace_of_isDigit {c : Char} (h : c.isDigit = true) : isSpace c = false := by
  simp only [isSpace, Bool.or_eq_false_iff, beq_eq_false_iff_ne]
  refine ⟨⟨⟨?_, ?_⟩, ?_⟩, ?_⟩ <;> rintro rfl <;> exact absurd h (by decide)

/-- What is no blank is not skipped. -/
theorem skipSpace_cons {c : Char} (h : isSpace c = false) (cs : List Char) :
    skipSpace (c :: cs) = c :: cs := by
  simp [skipSpace, h]

/-- The escape of a control character stands for that character. -/
theorem escaped_control {c : Char} (h : c < ' ') (rest : List Char) :
    escaped ('u' :: '0' :: '0' :: hexDigit (c.toNat / 16) :: hexDigit (c.toNat % 16) :: rest) =
      .ok (c, 5) := by
  have hc : c.toNat < 32 := h
  have h₁ := hexValue?_hexDigit (c.toNat / 16) (by omega)
  have h₂ := hexValue?_hexDigit (c.toNat % 16) (by omega)
  have h₀ : hexValue? '0' = some 0 := by decide
  have hn : c.toNat / 16 * 16 + c.toNat % 16 = c.toNat := by omega
  have hl : isLowSurrogate c.toNat = false := by simp [isLowSurrogate]; omega
  have hh : isHighSurrogate c.toNat = false := by simp [isHighSurrogate]; omega
  simp [escaped, numberEscape, hexUnit, h₀, h₁, h₂, hn, hl, hh, Char.ofNat_toNat, bind, Except.bind]

/-- The written form of a character reads back as that character. -/
theorem stringBody_escape (acc : List Char) (c : Char) (rest : List Char) :
    stringBody acc 0 (escape c ++ rest) = stringBody (c :: acc) 0 rest := by
  unfold escape
  split
  · subst_vars; rfl
  split
  · subst_vars; rfl
  split
  · subst_vars; rfl
  split
  · subst_vars; rfl
  split
  · subst_vars; rfl
  split
  · subst_vars; rfl
  split
  · subst_vars; rfl
  split
  · rename_i h
    simp [stringBody, escaped_control h]
  · rename_i h₁ h₂ _ _ _ _ _ h₃
    simp [stringBody, h₁, h₂, h₃]

theorem stringBody_flatMap_escape (acc cs rest : List Char) :
    stringBody acc 0 (cs.flatMap escape ++ '"' :: rest) =
      .ok (String.ofList (acc.reverse ++ cs), rest) := by
  induction cs generalizing acc with
  | nil => simp [stringBody]
  | cons c cs ih =>
      rw [List.flatMap_cons, List.append_assoc, stringBody_escape, ih]
      simp

/-- **A string reads back**, from behind its opening quotation mark. -/
theorem stringBody_quote (s : String) (rest : List Char) :
    stringBody [] 0 (s.toList.flatMap escape ++ '"' :: rest) = .ok (s, rest) := by
  simp [stringBody_flatMap_escape]

/-! ### Numbers -/

/-- The text does not go on like a number. -/
def Stops (cs : List Char) : Prop :=
  ∀ c ∈ cs.head?, c.isDigit = false ∧ c ≠ '.' ∧ c ≠ 'e' ∧ c ≠ 'E'

theorem le_ofDigitChars (cs : List Char) (n : Nat) : n ≤ Nat.ofDigitChars 10 cs n := by
  induction cs generalizing n with
  | nil => simp
  | cons c cs ih =>
      rw [Nat.ofDigitChars_cons]
      exact Nat.le_trans (by omega) (ih _)

theorem Stops.startsWithDigit {rest : List Char} (h : Stops rest) :
    startsWithDigit rest = false := by
  cases rest with
  | nil => rfl
  | cons c cs => exact (h c rfl).1

/-- Digits of a number below the bound are all taken. -/
theorem takeDigits_append {bound : Nat} {ds rest : List Char} (hds : ∀ d ∈ ds, d.isDigit = true)
    (hrest : startsWithDigit rest = false) (n taken : Nat)
    (hb : Nat.ofDigitChars 10 ds n < bound) :
    takeDigits bound n taken (ds ++ rest) =
      (Nat.ofDigitChars 10 ds n, taken + ds.length, rest) := by
  induction ds generalizing n taken with
  | nil =>
      cases rest with
      | nil => rfl
      | cons c cs =>
          have hc : c.isDigit = false := hrest
          simp [takeDigits, hc]
  | cons d ds ih =>
      have hd : d.isDigit = true := hds d (by simp)
      have he : n * 10 + digitValue d = 10 * n + (d.toNat - '0'.toNat) := by
        rw [digitValue]; omega
      rw [Nat.ofDigitChars_cons] at hb ⊢
      have hlt : n * 10 + digitValue d < bound := he ▸ Nat.lt_of_le_of_lt (le_ofDigitChars ds _) hb
      rw [List.cons_append, takeDigits, if_pos ⟨hd, hlt⟩, he,
        ih (fun x hx => hds x (by simp [hx])) _ _ hb]
      simp only [List.length_cons]
      congr 2
      omega

/-- The first of several digits of a number is not zero. -/
theorem toDigits_head_ne_zero {n : Nat} {ds : List Char} (h : Nat.toDigits 10 n = '0' :: ds) :
    ds = [] := by
  induction n using Nat.strongRecOn generalizing ds with
  | ind n ih =>
      by_cases hn : n < 10
      · rw [Nat.toDigits_of_lt_base hn] at h
        exact (List.cons.inj h).2.symm
      · rw [Nat.toDigits_of_base_le (by decide) (by omega)] at h
        cases hd : Nat.toDigits 10 (n / 10) with
        | nil => exact absurd hd Nat.toDigits_ne_nil
        | cons c cs =>
            rw [hd, List.cons_append, List.cons.injEq] at h
            obtain ⟨rfl, -⟩ := h
            obtain rfl := ih (n / 10) (by omega) hd
            -- a number whose only digit is zero is zero
            have h₀ : n / 10 = 0 := by
              have := Nat.ofDigitChars_ten_toDigits (n := n / 10)
              rw [hd] at this
              simpa [Nat.ofDigitChars] using this.symm
            omega

/-- A text that stops a number neither extends its digits nor has a point or an exponent. -/
theorem Stops.skipDigits {rest : List Char} (h : Stops rest) :
    skipDigits rest = rest ∧ rest.takeWhile Char.isDigit = [] := by
  cases rest with
  | nil => exact ⟨rfl, rfl⟩
  | cons c cs =>
      have hc : c.isDigit = false := (h c rfl).1
      simp [Token.skipDigits, hc]

/-- The digits of a number: there is a first one, and it is zero only where it is alone. -/
theorem exists_natText (n : Nat) : ∃ d ds, Decimal.natText n = d :: ds ∧ d.isDigit = true ∧
    (∀ c ∈ ds, c.isDigit = true) ∧ (d = '0' → ds = []) := by
  have hdigit : ∀ c ∈ Nat.toDigits 10 n, c.isDigit = true :=
    fun c hc => Nat.isDigit_of_mem_toDigits (by decide) (by decide) hc
  cases hd : Nat.toDigits 10 n with
  | nil => exact absurd hd Nat.toDigits_ne_nil
  | cons d ds =>
      rw [hd] at hdigit
      refine ⟨d, ds, hd, hdigit d (List.mem_cons_self ..), fun c hc => ?_, ?_⟩
      · exact hdigit c (List.mem_cons_of_mem _ hc)
      · rintro rfl
        exact toDigits_head_ne_zero hd

/-- No number starts with a zero in front of a digit. -/
theorem Stops.not_leadingZero {d : Char} {ds rest : List Char} (h : Stops rest)
    (hd : d = '0' → ds = []) : ¬ (d = '0' ∧ Token.startsWithDigit (ds ++ rest) = true) := by
  rintro ⟨hzero, hmore⟩
  rw [hd hzero, List.nil_append, h.startsWithDigit] at hmore
  cases hmore

/-- **A natural number reads back**, where the rest does not go on like a number. -/
theorem number_natText {n : Nat} (hn : n < UInt64.size) {rest : List Char} (hrest : Stops rest) :
    number false (Decimal.natText n ++ rest) = .ok (.natural n, rest) := by
  have hds : ∀ d ∈ Nat.toDigits 10 n, d.isDigit = true :=
    fun d hd => Nat.isDigit_of_mem_toDigits (by decide) (by decide) hd
  have htake : takeDigits UInt64.size 0 0 (Decimal.natText n ++ rest) = _ :=
    takeDigits_append hds hrest.startsWithDigit 0 0 (by rwa [Nat.ofDigitChars_ten_toDigits])
  rw [Nat.ofDigitChars_ten_toDigits] at htake
  obtain ⟨d, ds, hn, hdigit, -, hzero⟩ := exists_natText n
  rw [hn] at htake ⊢
  obtain ⟨hskip, hmore⟩ := hrest.skipDigits
  simp only [number, List.cons_append, hdigit, ↓reduceIte, if_neg (hrest.not_leadingZero hzero)]
  rw [← List.cons_append, htake]
  simp only [hskip, hmore, List.length_nil, ↓reduceIte]
  -- the rest starts with no point and no exponent
  split
  · exact absurd rfl (hrest '.' rfl).2.1
  · exact absurd rfl (hrest 'e' rfl).2.2.1
  · exact absurd rfl (hrest 'E' rfl).2.2.2
  · rfl

end Token

end NativeMessaging.Json
