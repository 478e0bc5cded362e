import NativeMessaging.Json.Skip
import NativeMessaging.Proofs.Json.RoundTrip

/-!
# Json — a printed scalar is passed over

A reader that does not ask for a member passes over its value.  Behind the text of a string, and
behind that of a natural number, it arrives where the rest begins (`Passes`).
-/

namespace NativeMessaging.Json.Skip

open Token (Stops)

/-- A value is passed over exactly, whatever stops behind it. -/
def Passes (v : Json) : Prop :=
  ∀ rounds rest, 0 < rounds → Stops rest → value rounds (text v ++ rest) = .ok rest

/-- A text that starts with a scalar is read by one look at its start. -/
theorem value_of_start {rounds : Nat} (h : 0 < rounds) {cs rest : List Char}
    (hstart : start cs = .ok (none, rest)) : value rounds cs = .ok rest := by
  obtain ⟨k, hk⟩ : ∃ k, 2 * rounds = k + 1 + 1 := ⟨2 * rounds - 2, by omega⟩
  rw [value, hk, run, hstart]
  rfl

/-- The escape of a character is passed over. -/
theorem stringBody_escape (c : Char) (rest : List Char) :
    stringBody 0 (escape c ++ rest) = stringBody 0 rest := by
  unfold escape
  split
  · rfl
  split
  · rfl
  split
  · rfl
  split
  · rfl
  split
  · rfl
  split
  · rfl
  split
  · rfl
  split
  · next hcontrol =>
    have hc : c.toNat < 32 := hcontrol
    have h₁ := hexValue?_hexDigit (c.toNat / 16) (by omega)
    have h₂ := hexValue?_hexDigit (c.toNat % 16) (by omega)
    have h₀ : Token.hexValue? '0' = some 0 := by decide
    simp [stringBody, escaped, Token.hexUnit, h₀, h₁, h₂, bind, Except.bind]
  · next hmark hslash _ _ _ _ _ hcontrol => simp [stringBody, hmark, hslash, hcontrol]

theorem stringBody_quote (cs rest : List Char) :
    stringBody 0 (cs.flatMap escape ++ '"' :: rest) = .ok rest := by
  induction cs with
  | nil => rfl
  | cons c cs ih => rw [List.flatMap_cons, List.append_assoc, stringBody_escape, ih]

/-- **A string is passed over.** -/
theorem passes_string (s : String) : Passes (.string s) := by
  intro rounds rest hrounds _
  refine value_of_start hrounds ?_
  rw [text, quote_append, start, Token.skipSpace_cons rfl]
  simp only [stringBody_quote, bind, Except.bind]

/-- The digits at the start of a text are passed over. -/
theorem skipDigits_append {ds rest : List Char} (hds : ∀ d ∈ ds, d.isDigit = true)
    (hrest : Stops rest) : Token.skipDigits (ds ++ rest) = rest := by
  rw [Token.skipDigits, List.dropWhile_append_of_pos hds]
  exact hrest.skipDigits.1

theorem exponent?_of_stops {rest : List Char} (h : Stops rest) : exponent? rest = .ok rest := by
  unfold exponent?
  split
  · exact absurd rfl (h 'e' rfl).2.2.1
  · exact absurd rfl (h 'E' rfl).2.2.2
  · rfl

/-- **A natural number is passed over**, where the rest does not go on like a number. -/
theorem passes_natural (n : Nat) : Passes (.number (.natural n)) := by
  intro rounds rest hrounds hrest
  refine value_of_start hrounds ?_
  obtain ⟨d, ds, hn, hdigit, hds, hzero⟩ := Token.exists_natText n
  have hnumber : number (d :: (ds ++ rest)) = .ok rest := by
    rw [number, hdigit, if_neg (by simp), if_neg (hrest.not_leadingZero hzero),
      skipDigits_append hds hrest]
    split
    · exact absurd rfl (hrest '.' rfl).2.1
    · exact exponent?_of_stops hrest
  have hne : ∀ c : Char, c.isDigit = false → d ≠ c :=
    fun c hc h => by rw [h, hc] at hdigit; cases hdigit
  rw [text, Number.text, hn, List.cons_append, start,
    Token.skipSpace_cons (Token.isSpace_of_isDigit hdigit)]
  simp [hne 'n' rfl, hne 't' rfl, hne 'f' rfl, hne '"' rfl, hne '-' rfl, hne '[' rfl,
    hne '{' rfl, hdigit, hnumber]
  rfl

end NativeMessaging.Json.Skip
