import AsyncMarkers.Number.Double

/-!
# Shortest decimals

`Double.shortest` is the decimal with the fewest digits that reads back as a given double. For one,
two, ... seventeen digits it looks at the two neighbours of the value on the grid of decimals with
that many significant digits and keeps those that read back; the first grid with a hit decides, the
nearer of two hits wins, and an exact tie goes to the even last digit. A candidate is tried by
reading it, so whatever is returned reads back.
-/

namespace AsyncMarkers

namespace Double

/-- The number of decimal digits of `n`; zero has one. -/
def digitCount (n : Nat) : Nat := (Nat.toDigits 10 n).length

/-- The greatest `e` with `10 ^ e ≤ num / den`, for positive `num` and `den`. -/
def decimalExponent (num den : Nat) : Int :=
  let guess : Int := digitCount num - digitCount den
  if den * Nat.pow 10 guess.toNat ≤ num * Nat.pow 10 (-guess).toNat then guess else guess - 1

/-- The decimal `digits * 10 ^ exponent` with the sign of `x`, if it reads back as `x`. -/
def readsBack? (x : Double) (digits : Nat) (exponent : Int) : Option Decimal :=
  let candidate := Decimal.normalize ⟨x.negative, digits, exponent⟩
  if candidate.toDouble? = some x then some candidate else none

/-- The nearest decimal with `count` significant digits that reads back as `x`, if one does. -/
def onGrid? (x : Double) (count : Nat) : Option Decimal :=
  let num := x.ratio.1
  let den := x.ratio.2
  let unit : Int := decimalExponent num den - count + 1
  let scaledNum := num * Nat.pow 10 (-unit).toNat
  let scaledDen := den * Nat.pow 10 unit.toNat
  let below := scaledNum / scaledDen
  let twice := 2 * (scaledNum % scaledDen)
  match readsBack? x below unit, readsBack? x (below + 1) unit with
  | some low, some high =>
    if twice < scaledDen then some low
    else if scaledDen < twice then some high
    else if below % 2 = 0 then some low
    else some high
  | some low, none => some low
  | none, high => high

/-- Every digit of `x`: the decimal that equals it. -/
def exactDecimal (x : Double) : Decimal :=
  Decimal.normalize
    ⟨x.negative, (x.significand <<< x.exponent.toNat) * Nat.pow 5 (-x.exponent).toNat,
      min x.exponent 0⟩

/-- The shortest decimal that reads back as `x`, the nearest one of that length. -/
def shortest (x : Double) : Decimal :=
  if x.rank.val = 0 then ⟨x.negative, 0, 0⟩
  else (((List.range 17).map (· + 1)).findSome? x.onGrid?).getD x.exactDecimal

end Double

end AsyncMarkers
