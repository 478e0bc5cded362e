import Mathlib.Data.Nat.Digits.Defs
import Mathlib.Data.String.Basic
import NativeMessaging.Json.Printer

/-!
# Json — how long a text is in bytes

A string is longer in JSON than by itself: it takes two quotation marks, and every character that
is escaped takes more bytes than it has (`growth`).  A letter behind a backslash takes one byte
more, a control character without a letter five, and that is the most (`size_growthOf_le`).

* `utf8Len_quote`: the bytes of a string between its quotation marks.
* `length_natText_le`: the digits of a number of 32 bits.
-/

namespace NativeMessaging.Json

open String (utf8Len)

/-- The bytes that a character takes more when it is escaped. -/
def growth (c : Char) : Nat :=
  if c ∈ ['"', '\\', '\x08', '\t', '\n', '\x0c', '\r'] then 1
  else if c < ' ' then 5
  else 0

/-- The bytes that a string takes more for its escapes. -/
def growthOf (s : String) : Nat := (s.toList.map growth).sum

/-- A character that is written with a backslash is one byte wide. -/
theorem utf8Size_of_lt {c : Char} (h : c < ' ') : c.utf8Size = 1 := by
  have hc : c.toNat < 32 := h
  exact Char.utf8Size_eq_one_iff.mpr (UInt32.le_iff_toNat_le.mpr (by
    change c.toNat ≤ 127
    omega))

theorem utf8Size_digitChar : ∀ n, n < 16 → (Nat.digitChar n).utf8Size = 1 := by
  decide

theorem utf8Len_escape (c : Char) : utf8Len (escape c) = c.utf8Size + growth c := by
  unfold escape
  by_cases hshort : c ∈ ['"', '\\', '\x08', '\t', '\n', '\x0c', '\r']
  · -- the two characters of such an escape are one byte wide, as the character itself is
    rw [growth, if_pos hshort]
    simp only [List.mem_cons, List.not_mem_nil, or_false] at hshort
    rcases hshort with rfl | rfl | rfl | rfl | rfl | rfl | rfl <;> decide
  · rw [growth, if_neg hshort]
    simp only [List.mem_cons, List.not_mem_nil, or_false, not_or] at hshort
    obtain ⟨h₁, h₂, h₃, h₄, h₅, h₆, h₇⟩ := hshort
    rw [if_neg h₁, if_neg h₂, if_neg h₃, if_neg h₄, if_neg h₅, if_neg h₆, if_neg h₇]
    by_cases hcontrol : c < ' '
    · have hc : c.toNat < 32 := hcontrol
      rw [if_pos hcontrol, if_pos hcontrol, utf8Size_of_lt hcontrol]
      simp only [String.utf8Len_cons, String.utf8Len_nil, hexDigit,
        utf8Size_digitChar _ (Nat.mod_lt _ (by decide : 0 < 16)),
        utf8Size_digitChar (c.toNat / 16) (by omega)]
      decide
    · rw [if_neg hcontrol, if_neg hcontrol, String.utf8Len_cons, String.utf8Len_nil]
      omega

theorem utf8Len_flatMap_escape (cs : List Char) :
    utf8Len (cs.flatMap escape) = utf8Len cs + (cs.map growth).sum := by
  induction cs with
  | nil => rfl
  | cons c cs ih =>
      rw [List.flatMap_cons, String.utf8Len_append, ih, utf8Len_escape, String.utf8Len_cons,
        List.map_cons, List.sum_cons]
      omega

/-- **A string in JSON** takes its own bytes, what its escapes add, and two quotation marks. -/
theorem utf8Len_quote (s : String) :
    utf8Len (quote s) = s.utf8ByteSize + growthOf s + 2 := by
  have hmark : '"'.utf8Size = 1 := rfl
  rw [quote, String.utf8Len_cons, String.utf8Len_append, utf8Len_flatMap_escape, growthOf,
    String.utf8Len_toList, String.utf8Len_cons, String.utf8Len_nil, hmark]

/-- An escape adds at most five bytes to a character. -/
theorem growth_le (c : Char) : growth c ≤ 5 * c.utf8Size := by
  have hpos := c.utf8Size_pos
  rw [growth]
  split
  · omega
  · split <;> omega

/-- **The most that escapes can add** is five times the bytes of the string. -/
theorem growthOf_le (s : String) : growthOf s ≤ 5 * s.utf8ByteSize := by
  rw [growthOf, ← String.utf8Len_toList]
  induction s.toList with
  | nil => exact Nat.le_refl _
  | cons c cs ih =>
      have hc := growth_le c
      rw [List.map_cons, List.sum_cons, String.utf8Len_cons]
      omega

/-! ### Numbers -/

theorem utf8Len_of_isDigit {cs : List Char} (h : ∀ c ∈ cs, c.isDigit = true) :
    utf8Len cs = cs.length := by
  induction cs with
  | nil => rfl
  | cons c cs ih =>
      have hc : c.utf8Size = 1 := by
        have hdigit := h c (by simp)
        simp only [Char.isDigit, Bool.and_eq_true, decide_eq_true_eq] at hdigit
        exact Char.utf8Size_eq_one_iff.mpr (UInt32.le_trans hdigit.2 (by decide))
      rw [String.utf8Len_cons, ih fun d hd => h d (by simp [hd]), hc, List.length_cons]

/-- The digits of a number are one byte wide each. -/
theorem utf8Len_natText (n : Nat) :
    utf8Len (Decimal.natText n) = (Decimal.natText n).length :=
  utf8Len_of_isDigit fun _ hd => Nat.isDigit_of_mem_toDigits (by decide) (by decide) hd

/-- A number of 32 bits has at most ten digits. -/
theorem length_natText_le (n : UInt32) : (Decimal.natText n.toNat).length ≤ 10 :=
  Nat.toDigits_length 10 n.toNat 10 (by decide) (Nat.lt_trans n.toNat_lt (by decide))

end NativeMessaging.Json
