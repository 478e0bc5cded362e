/-!
# Decimal — Binary64

The finite numbers of the 64-bit binary floating-point format, as exact values.  A number is a
sign, a significand and a power of two; every operation computes the exact ratio and rounds it once,
to the nearest number of the format, a half going to the even significand.  A result beyond the
largest finite number is none.
-/

namespace NativeMessaging.Decimal

/-- The number `± significand · 2 ^ exponent`.  Numbers made by `round` have a significand below
`2 ^ 53`, the least exponent `-1074` or a significand of full length, and an exponent of at most
`971`. -/
structure Binary64 where
  negative : Bool
  significand : Nat
  exponent : Int
  deriving DecidableEq, Repr

namespace Binary64

/-- The least significand of full length. -/
def fullLength : Nat := Nat.pow 2 52

/-- Zero, without its sign. -/
def zero : Binary64 := ⟨false, 0, -1074⟩

def isZero (x : Binary64) : Bool := x.significand == 0

/-- `num / den` scaled by `2 ^ -e`, as a ratio of natural numbers. -/
def scaled (num den : Nat) (e : Int) : Nat × Nat :=
  if 0 ≤ e then (num, den * Nat.pow 2 e.toNat) else (num * Nat.pow 2 (-e).toNat, den)

/-- The whole number nearest to `num / den`, a half going to the even one. -/
def nearestEven (num den : Nat) : Nat :=
  let q := num / den
  let twice := 2 * (num % den)
  if twice < den then q else if den < twice then q + 1 else if q % 2 = 0 then q else q + 1

/-- The exponent that gives `num / den` a significand of full length, never below the least one. -/
def exponentOf (num den : Nat) : Int :=
  let e : Int := (Nat.log2 num : Int) - (Nat.log2 den : Int) - 52
  let (n, d) := scaled num den e
  max (if n / d < fullLength then e - 1 else e) (-1074)

/-- The number nearest to `num / den`; none beyond the largest finite number. -/
def round (num den : Nat) : Option Binary64 :=
  if num = 0 then some zero
  else
    let e := exponentOf num den
    let (n, d) := scaled num den e
    let q := nearestEven n d
    let (m, e) := if q = 2 * fullLength then (fullLength, e + 1) else (q, e)
    if e ≤ 971 then some ⟨false, m, e⟩ else none

/-- The magnitude as a ratio of natural numbers. -/
def ratio (x : Binary64) : Nat × Nat :=
  if 0 ≤ x.exponent then (x.significand * Nat.pow 2 x.exponent.toNat, 1)
  else (x.significand, Nat.pow 2 (-x.exponent).toNat)

/-- The number nearest to a natural number. -/
def ofNat (n : Nat) : Option Binary64 := round n 1

/-- The power of ten with that exponent, rounded to the format. -/
def powerOfTen (n : Nat) : Option Binary64 := ofNat (Nat.pow 10 n)

/-- The rounded product of two magnitudes. -/
def mul (x y : Binary64) : Option Binary64 :=
  let (a, b) := x.ratio
  let (c, d) := y.ratio
  round (a * c) (b * d)

/-- The rounded quotient of two magnitudes. -/
def div (x y : Binary64) : Option Binary64 :=
  let (a, b) := x.ratio
  let (c, d) := y.ratio
  round (a * d) (b * c)

/-- The magnitude as a natural number, if it is one. -/
def magnitude? (x : Binary64) : Option Nat :=
  let (a, b) := x.ratio
  if a % b = 0 then some (a / b) else none

/-- The natural number that a number is, if it is one; a negative zero is zero. -/
def toNat? (x : Binary64) : Option Nat :=
  if x.negative && !x.isZero then none else x.magnitude?

end Binary64

end NativeMessaging.Decimal
