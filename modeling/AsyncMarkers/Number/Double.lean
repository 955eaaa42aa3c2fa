/-!
# Finite binary64 numbers

The number literals of a tree are finite binary64 numbers. A `Double` is a sign together with the
*rank* of its absolute value in the increasing enumeration of the non-negative finite ones: rank `0`
is zero, rank `1` the least subnormal, and `2047 * 2 ^ 52` of them exist. In this enumeration the
value of rank `r` is `significand * 2 ^ exponent`, with the two read off `r` by a division by `2 ^
52`, and rounding a quotient to nearest is one division followed by an addition: a carry out of the
significand moves to the next binade by itself.

* `Double.ofRatio?` rounds a quotient of naturals to the nearest double, a tie going to the even
  significand, and fails when the result would not be finite;
* `Double.mul?` and `Double.div?` round a product and a quotient of doubles in the same way;
* `Decimal` is a signed decimal number, and `Decimal.toDouble?` rounds one.
-/

namespace AsyncMarkers

/-- How many doubles there are in a binade: `2 ^ 52`. -/
abbrev binadeSize : Nat := 0x10000000000000

/-- A finite binary64 number: its sign, and the rank of its absolute value among the non-negative
finite ones in increasing order. -/
structure Double where
  /-- Whether the sign bit is set; zero has both signs. -/
  negative : Bool
  /-- How many non-negative finite doubles lie below the absolute value. -/
  rank : Fin (2047 * binadeSize)
deriving DecidableEq

/-- `n / d` rounded to the nearest natural number, a tie going to the even one. -/
def roundedQuotient (n d : Nat) : Nat :=
  let quotient := n / d
  let twice := 2 * (n % d)
  if twice < d then quotient
  else if d < twice then quotient + 1
  else if quotient % 2 = 0 then quotient
  else quotient + 1

namespace Double

/-- Zero, with the given sign. -/
def zero (negative : Bool) : Double := ⟨negative, 0, by decide⟩

/-- The integer `m` for which the absolute value is `m * 2 ^ exponent`. -/
def significand (x : Double) : Nat :=
  if x.rank.val < binadeSize then x.rank.val else binadeSize + x.rank.val % binadeSize

/-- The binary exponent belonging to `significand`. -/
def exponent (x : Double) : Int :=
  if x.rank.val < binadeSize then -1074 else (x.rank.val / binadeSize : Nat) - 1075

/-- The greatest `e` with `2 ^ e ≤ num / den`, for positive `num` and `den`. -/
def binaryExponent (num den : Nat) : Int :=
  let guess : Int := num.log2 - den.log2
  if den <<< guess.toNat ≤ num <<< (-guess).toNat then guess else guess - 1

/-- The rank of the double nearest to `num / den`, counted on past the finite ones. -/
def rankOfRatio (num den : Nat) : Nat :=
  if num = 0 then 0
  else
    let unit : Int := max (-1074) (binaryExponent num den - 52)
    (unit + 1074).toNat * binadeSize +
      roundedQuotient (num <<< (-unit).toNat) (den <<< unit.toNat)

/-- The double of the given sign nearest to `num / den`, unless that is not finite. -/
def ofRatio? (negative : Bool) (num den : Nat) : Option Double :=
  if h : rankOfRatio num den < 2047 * binadeSize then some ⟨negative, rankOfRatio num den, h⟩
  else none

/-- The double nearest to a natural number, unless that is not finite. -/
def ofNat? (n : Nat) : Option Double := ofRatio? false n 1

/-- The double nearest to an integer, unless that is not finite. -/
def ofInt? (z : Int) : Option Double := ofRatio? (z < 0) z.natAbs 1

/-- The absolute value as a quotient of naturals. -/
def ratio (x : Double) : Nat × Nat :=
  (x.significand <<< x.exponent.toNat, 1 <<< (-x.exponent).toNat)

/-- The double nearest to a product, unless that is not finite. -/
def mul? (x y : Double) : Option Double :=
  ofRatio? (x.negative != y.negative) (x.ratio.1 * y.ratio.1) (x.ratio.2 * y.ratio.2)

/-- The double nearest to a quotient, unless that is not finite. -/
def div? (x y : Double) : Option Double :=
  if y.rank.val = 0 then none
  else ofRatio? (x.negative != y.negative) (x.ratio.1 * y.ratio.2) (x.ratio.2 * y.ratio.1)

/-- The share `part / whole`, each taken as a double first; zero of nothing. -/
def share (part whole : Nat) : Double :=
  ((ofNat? part).bind fun p => (ofNat? whole).bind p.div?).getD (zero false)

end Double

/-- The decimal number `± digits * 10 ^ exponent`. -/
structure Decimal where
  /-- Whether a minus sign stands in front; zero has both signs. -/
  negative : Bool
  /-- The digits, read as one natural number. -/
  digits : Nat
  /-- The power of ten that they are multiplied by. -/
  exponent : Int
deriving DecidableEq

namespace Decimal

/-- Drops trailing zeros of `digits`, raising the exponent by one for each. -/
def stripZeros (digits : Nat) (exponent : Int) : Nat × Int :=
  if digits ≠ 0 ∧ digits % 10 = 0 then stripZeros (digits / 10) (exponent + 1)
  else (digits, exponent)
termination_by digits
decreasing_by omega

/-- The same number with no trailing zero among its digits; zero has exponent zero. -/
def normalize (d : Decimal) : Decimal :=
  if d.digits = 0 then ⟨d.negative, 0, 0⟩
  else
    let stripped := stripZeros d.digits d.exponent
    ⟨d.negative, stripped.1, stripped.2⟩

/-- The nearest double, unless that is not finite. Exponents so large or so small that the digits
cannot matter are settled without computing the power of ten. -/
def toDouble? (d : Decimal) : Option Double :=
  if d.digits = 0 then some (.zero d.negative)
  else if 400 < d.exponent then none
  else if d.exponent < -(400 + d.digits.log2) then some (.zero d.negative)
  else Double.ofRatio? d.negative (d.digits * Nat.pow 10 d.exponent.toNat)
    (Nat.pow 10 (-d.exponent).toNat)

end Decimal

end AsyncMarkers
