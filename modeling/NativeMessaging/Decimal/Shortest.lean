import NativeMessaging.Decimal.Binary64

/-!
# Decimal — Shortest

Numbers as decimal text: the fewest digits that read back as the same number, and of those the
nearest to it.  A `Style` says where positional notation ends and the exponent begins.
-/

namespace NativeMessaging.Decimal

/-- A positive decimal `digits · 10 ^ exponent`. -/
structure Digits where
  digits : Nat
  exponent : Int
  deriving DecidableEq, Repr

/-- The exponent of ten of the leading digit of `num / den`. -/
def leadingExponent (num den : Nat) : Int :=
  let below (k : Int) : Bool :=
    if 0 ≤ k then num < den * Nat.pow 10 k.toNat else num * Nat.pow 10 (-k).toNat < den
  let guess : Int := ((Nat.toDigits 10 num).length : Int) - ((Nat.toDigits 10 den).length : Int)
  if below guess then guess - 1 else if below (guess + 1) then guess else guess + 1

namespace Binary64

/-- The numbers that round to `x`, in quarters of its last place: from the first to the third
component, with `x` itself between them.  Below a power of two the neighbours lie twice as close. -/
def interval (x : Binary64) : Nat × Nat × Nat :=
  let m := 4 * x.significand
  let low := if x.significand = fullLength ∧ -1074 < x.exponent then m - 1 else m - 2
  (low, m, m + 2)

/-- The multiples of `10 ^ k` around `x` that read back as `x`; of two the nearer, a tie going to
the even one. -/
def onGrid? (x : Binary64) (k : Int) : Option Nat :=
  let (low, mid, high) := x.interval
  -- one quarter of the last place is `a / b` steps of the grid
  let e := x.exponent - 2
  let a := (if 0 ≤ e then Nat.pow 2 e.toNat else 1) * (if 0 ≤ k then 1 else Nat.pow 10 (-k).toNat)
  let b := (if 0 ≤ e then 1 else Nat.pow 2 (-e).toNat) * (if 0 ≤ k then Nat.pow 10 k.toNat else 1)
  let inside (d : Nat) : Bool :=
    if x.significand % 2 = 0 then low * a ≤ d * b && d * b ≤ high * a
    else low * a < d * b && d * b < high * a
  let d := mid * a / b
  let below := mid * a - d * b
  let above := (d + 1) * b - mid * a
  match inside d && d != 0, inside (d + 1) with
  | true,  true  => if below < above ∨ (below = above ∧ d % 2 = 0) then some d else some (d + 1)
  | true,  false => some d
  | false, true  => some (d + 1)
  | false, false => none

/-- The first grid, of `n` digits up to `17`, that has a number reading back as `x`. -/
def firstGrid (x : Binary64) (lead : Int) : (left : Nat) → Digits
  | 0        => ⟨x.significand, 0⟩
  | left + 1 =>
    let k := lead - ((17 : Int) - (left + 1 : Nat))
    match x.onGrid? k with
    | some d => ⟨d, k⟩
    | none   => firstGrid x lead left

/-- The fewest digits that read back as `x`, for an `x` that is not zero. -/
def shortest (x : Binary64) : Digits :=
  let (num, den) := x.ratio
  x.firstGrid (leadingExponent num den) 17

end Binary64

/-- How a number is written: positional notation from the exponent `least` up to `greatest`, without
a bound where there is none. -/
structure Style where
  least : Option Int
  greatest : Option Int
  deriving DecidableEq, Repr

/-- The style that writes every number positionally. -/
def Style.positional : Style := ⟨none, none⟩

/-- The digits of a natural number. -/
def natText (n : Nat) : List Char := Nat.toDigits 10 n

/-- Drops the zeros at the end of a number's digits. -/
def dropZeros (cs : List Char) : List Char := (cs.reverse.dropWhile (· == '0')).reverse

/-- Positional notation of the digits `ds`, the first of which has exponent `e`: at least one digit
on each side of the point. -/
def pointText (ds : List Char) (e : Int) : List Char :=
  if e < 0 then
    '0' :: '.' :: (List.replicate ((-e).toNat - 1) '0' ++ ds)
  else
    let whole := ds.take (e.toNat + 1)
    let fraction := ds.drop (e.toNat + 1)
    whole ++ List.replicate (e.toNat + 1 - ds.length) '0' ++ ['.'] ++
      (if fraction.isEmpty then ['0'] else fraction)

/-- Scientific notation: one digit before the point, and a signed exponent. -/
def exponentText (ds : List Char) (e : Int) : List Char :=
  let fraction := ds.drop 1
  ds.take 1 ++ (if fraction.isEmpty then [] else '.' :: fraction) ++
    ['e', if e < 0 then '-' else '+'] ++ natText e.natAbs

/-- A number in a style. -/
def Style.write (style : Style) (x : Binary64) : List Char :=
  let sign := if x.negative then ['-'] else []
  if x.isZero then sign ++ ['0', '.', '0']
  else
    let s := x.shortest
    let written := natText s.digits
    let e : Int := s.exponent + ((written.length : Int) - 1)
    let ds := dropZeros written
    let inside := style.least.all (decide <| · ≤ e) && style.greatest.all (decide <| e ≤ ·)
    sign ++ if inside then pointText ds e else exponentText ds e

end NativeMessaging.Decimal
