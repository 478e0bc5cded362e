import Mathlib.Algebra.Order.Field.Power
import Mathlib.Algebra.Order.Ring.Rat
import Mathlib.Data.Nat.Cast.Order.Field
import NativeMessaging.Message.Address

/-!
# Json — the members that count, and whole numbers

What a value holds, said of its members and of its numbers themselves.

* `Json.lookup_eq_some_iff`, `Json.lookup_eq_none_iff`: a name stands for the value of its last
  member, and for nothing where there is no member of that name.
* `Decimal.Binary64.toNat?_eq_some_iff`: a floating-point number is a natural number where its value
  is that number.
* `Json.uint32?_eq_some_iff`: which values are numbers of 32 bits.
-/

namespace NativeMessaging

/-! ### Floating-point numbers -/

namespace Decimal.Binary64

/-- The magnitude of a floating-point number. -/
def magnitude (x : Binary64) : ℚ := x.significand * 2 ^ x.exponent

/-- The value of a floating-point number. -/
def value (x : Binary64) : ℚ := if x.negative then -x.magnitude else x.magnitude

theorem ratio_pos (x : Binary64) : 0 < x.ratio.2 := by
  rw [ratio]
  split
  · exact Nat.one_pos
  · exact Nat.two_pow_pos _

/-- The ratio of a floating-point number is its magnitude. -/
theorem magnitude_eq (x : Binary64) : x.magnitude = x.ratio.1 / x.ratio.2 := by
  rw [magnitude, ratio]
  split
  · next hexp =>
    obtain ⟨k, hk⟩ := Int.eq_ofNat_of_zero_le hexp
    rw [hk]
    simp
  · next hexp =>
    obtain ⟨k, hk⟩ := Int.eq_ofNat_of_zero_le (Int.neg_nonneg_of_nonpos (by omega : x.exponent ≤ 0))
    have hneg : x.exponent = -(k : Int) := by omega
    rw [hneg]
    simp [div_eq_mul_inv]

theorem magnitude?_eq_some_iff {x : Binary64} {n : Nat} :
    x.magnitude? = some n ↔ x.magnitude = n := by
  have hpos := x.ratio_pos
  have hcast : (x.ratio.2 : ℚ) ≠ 0 := Nat.cast_ne_zero.mpr (Nat.ne_of_gt hpos)
  have hwhole : x.magnitude = n ↔ x.ratio.1 = n * x.ratio.2 := by
    rw [magnitude_eq, div_eq_iff hcast]
    exact_mod_cast Iff.rfl
  rw [hwhole, magnitude?]
  dsimp only
  constructor
  · intro h
    split at h
    · next hdvd =>
      obtain rfl := Option.some.inj h
      exact (Nat.div_mul_cancel (Nat.dvd_of_mod_eq_zero hdvd)).symm
    · cases h
  · intro h
    rw [if_pos (h ▸ Nat.mul_mod_left n _), h, Nat.mul_div_cancel n hpos]

theorem magnitude_nonneg (x : Binary64) : 0 ≤ x.magnitude :=
  mul_nonneg (Nat.cast_nonneg _) (zpow_nonneg (by decide) _)

theorem magnitude_eq_zero_iff {x : Binary64} : x.magnitude = 0 ↔ x.isZero := by
  have htwo : (2 : ℚ) ^ x.exponent ≠ 0 := zpow_ne_zero _ (by decide)
  simp [magnitude, isZero, htwo]

/-- **Which floating-point numbers are natural numbers**: those with such a value, a negative zero
among them. -/
theorem toNat?_eq_some_iff {x : Binary64} {n : Nat} : x.toNat? = some n ↔ x.value = n := by
  rw [toNat?, value]
  cases hneg : x.negative with
  | false => simpa using magnitude?_eq_some_iff
  | true =>
      cases hzero : x.isZero with
      | true =>
          have hmagnitude : x.magnitude = 0 := magnitude_eq_zero_iff.mpr hzero
          simpa [hmagnitude] using magnitude?_eq_some_iff (x := x) (n := n)
      | false =>
          -- below zero there is no natural number
          have hpos : 0 < x.magnitude := lt_of_le_of_ne x.magnitude_nonneg fun h => by
            rw [magnitude_eq_zero_iff.mp h.symm] at hzero
            cases hzero
          have hn : (0 : ℚ) ≤ n := Nat.cast_nonneg n
          have hne : -x.magnitude ≠ n := ne_of_lt (lt_of_lt_of_le (neg_lt_zero.mpr hpos) hn)
          simpa [hzero] using hne

end Decimal.Binary64

namespace Json

/-! ### Members -/

/-- The last member of that name has that value. -/
def Holds (members : List (String × Json)) (name : String) (v : Json) : Prop :=
  ∃ before behind, members = before ++ (name, v) :: behind ∧ ∀ m ∈ behind, m.1 ≠ name

/-- There is no member of that name. -/
def Lacks (members : List (String × Json)) (name : String) : Prop := ∀ m ∈ members, m.1 ≠ name

theorem lookup_append (name : String) (before behind : List (String × Json)) :
    lookup name (before ++ behind) = (lookup name behind).or (lookup name before) := by
  induction before with
  | nil => simp [lookup]
  | cons m before ih =>
      rw [List.cons_append, lookup, ih, lookup]
      cases lookup name behind <;> rfl

theorem lookup_eq_none_iff {name : String} {members : List (String × Json)} :
    lookup name members = none ↔ Lacks members name := by
  induction members with
  | nil => exact ⟨fun _ => List.forall_mem_nil _, fun _ => rfl⟩
  | cons m members ih =>
      obtain ⟨n, v⟩ := m
      rw [Lacks, List.forall_mem_cons, ← Lacks, ← ih, lookup]
      cases lookup name members with
      | none => simp
      | some w => simp

/-- **A name stands for its last member.** -/
theorem lookup_eq_some_iff {name : String} {members : List (String × Json)} {v : Json} :
    lookup name members = some v ↔ Holds members name v := by
  constructor
  · intro h
    induction members with
    | nil => cases h
    | cons m members ih =>
        obtain ⟨n, w⟩ := m
        cases hlater : lookup name members with
        | some u =>
            simp only [lookup, hlater] at h
            obtain ⟨before, behind, rfl, hlast⟩ := ih (hlater.trans h)
            exact ⟨(n, w) :: before, behind, rfl, hlast⟩
        | none =>
            simp only [lookup, hlater] at h
            split at h
            · next hname =>
              obtain rfl := Option.some.inj h
              exact ⟨[], members, by rw [hname]; rfl, lookup_eq_none_iff.mp hlater⟩
            · cases h
  · rintro ⟨before, behind, rfl, hlast⟩
    have hnone : lookup name behind = none := lookup_eq_none_iff.mpr hlast
    rw [lookup_append, lookup, hnone]
    simp

theorem string?_eq_some_iff {v : Json} {s : String} : v.string? = some s ↔ v = .string s := by
  cases v <;> simp [string?]

/-! ### Numbers of 32 bits -/

/-- The value is a natural number, written without a fraction or with one. -/
def IsNatural (v : Json) (n : Nat) : Prop :=
  v = .number (.natural n) ∨ ∃ x, v = .number (.real x) ∧ x.value = n

theorem natural?_eq_some_iff {v : Json} {n : Nat} : v.natural? = some n ↔ IsNatural v n := by
  cases v with
  | number m =>
      cases m with
      | natural m => simp [natural?, IsNatural]
      | negative m => simp [natural?, IsNatural]
      | real x => simp [natural?, IsNatural, Decimal.Binary64.toNat?_eq_some_iff]
  | _ => simp [natural?, IsNatural]

/-- **Which values are numbers of 32 bits.** -/
theorem uint32?_eq_some_iff {v : Json} {n : UInt32} :
    v.uint32? = some n ↔ IsNatural v n.toNat := by
  rw [← natural?_eq_some_iff, uint32?]
  cases v.natural? with
  | none => simp
  | some m =>
      simp only [Option.bind_eq_bind, Option.bind_some, Option.some.injEq]
      constructor
      · intro h
        split at h
        · next hm =>
          obtain rfl := Option.some.inj h
          exact (UInt32.toNat_ofNat_of_lt' hm).symm
        · cases h
      · rintro rfl
        rw [if_pos n.toNat_lt, UInt32.ofNat_toNat]

end Json

end NativeMessaging
