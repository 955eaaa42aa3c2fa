import AsyncMarkers.Number.Double

/-!
# Numerals

A numeral is a number as it is written: a sign, the digits before and behind the point, and an
exponent. It is read in one pass. The digits are gathered into a word of 64 bits as long as they
fit, those that do not fit counting by their number only; the word is rounded to a double, and that
is multiplied or divided by a power of ten, which is a double too.

So there are up to three roundings, and a few more for the least doubles. The value of a numeral is
close to the number that is written, but need not be the double nearest to it.
-/

namespace AsyncMarkers

/-- A number as it is written. -/
structure Numeral where
  /-- Whether a minus sign stands in front. -/
  negative : Bool
  /-- The digits before the point. -/
  whole : List Nat
  /-- The digits behind the point, if there is one. -/
  fraction : Option (List Nat)
  /-- The exponent, if there is one. -/
  exponent : Option Int

namespace Double

/-- The double nearest to `10 ^ k`. It is finite up to the greatest power, `maxPower`. -/
def powerOfTen (k : Nat) : Double := (ofNat? (Nat.pow 10 k)).getD (zero false)

/-- The greatest exponent of a power of ten that a double can be near to. -/
def maxPower : Nat := 308

/-- Divides by `10 ^ k`, in steps of `10 ^ maxPower` as long as something is left. -/
def scaleDown? (x : Double) (k : Nat) : Option Double :=
  if k ≤ maxPower then x.div? (powerOfTen k)
  else if x.rank.val = 0 then some x
  else (x.div? (powerOfTen maxPower)).bind fun y => y.scaleDown? (k - maxPower)
termination_by k
decreasing_by simp only [maxPower] at *; omega

/-- Multiplies by `10 ^ k`, unless the result is not finite. -/
def scaleUp? (x : Double) (k : Nat) : Option Double :=
  if k ≤ maxPower then x.mul? (powerOfTen k)
  else if x.rank.val = 0 then some x
  else none

/-- Multiplies by `10 ^ exponent`, unless the result is not finite. -/
def scale? (x : Double) (exponent : Int) : Option Double :=
  if 0 ≤ exponent then x.scaleUp? exponent.toNat else x.scaleDown? (-exponent).toNat

end Double

namespace Numeral

/-- Appends digits to a word of 64 bits as long as they fit. Also tells how many are left over. -/
def gather (word : Nat) : List Nat → Nat × Nat
  | [] => (word, 0)
  | digit :: digits =>
    if 10 * word + digit < UInt64.size then gather (10 * word + digit) digits
    else (word, digits.length + 1)

/-- The digits that fit into a word, and the exponent of the power of ten that goes with them. -/
def parts (n : Numeral) : Nat × Int :=
  let (word, dropped) := gather 0 n.whole
  let places := n.fraction.getD []
  let (word, left) := gather word places
  (word, dropped - (places.length - left : Nat) + n.exponent.getD 0)

/-- The double that a numeral stands for, unless it is not finite. -/
def toDouble? (n : Numeral) : Option Double := do
  let (word, exponent) := n.parts
  let x ← (← Double.ofNat? word).scale? exponent
  return { x with negative := n.negative }

/-- The integer that a numeral stands for, if it has neither point nor exponent and fits into a word
of 64 bits, with or without sign. A zero with a minus sign is none. -/
def toInt? (n : Numeral) : Option Int :=
  match n.fraction, n.exponent, gather 0 n.whole with
  | none, none, (word, 0) =>
    if !n.negative then some word
    else if 0 < word ∧ word ≤ UInt64.size / 2 then some (-word)
    else none
  | _, _, _ => none

end Numeral

end AsyncMarkers
