import ConnectionLeasing.Number.Binary64

/-!
# Whole numbers in plain decimal, through double precision

A count that passes through double precision is written with the fewest digits that still read
back as the same value, the rest filled with zeros: no exponent and no point. Below `2 ^ 53` that
is the count itself.
-/

namespace ConnectionLeasing.Number

namespace Binary64

/-- The value, if it is a whole number with a non-negative exponent; its floor otherwise. -/
def whole (x : Binary64) : Nat :=
  if 0 ≤ x.exponent then x.mantissa <<< x.exponent.toNat else x.mantissa >>> (-x.exponent).toNat

/-- Whether `n` reads back as the whole number `x`: it lies within half a gap on its side, the ends
included for an even mantissa. Distances are counted in quarters of the upper gap. -/
def readsBack (x : Binary64) (n : Nat) : Bool :=
  let gap := 1 <<< x.exponent.toNat
  let room := if n < x.whole ∧ x.mantissa = 1 <<< 52 then gap else 2 * gap
  let away := 4 * (if n < x.whole then x.whole - n else n - x.whole)
  away < room || (away = room && x.mantissa % 2 = 0)

/-- The neighbour of the value on the grid of multiples of `10 ^ places` that reads back, the
nearer of two and the upper one of two equally near. -/
def gridPoint? (x : Binary64) (places : Nat) : Option Nat :=
  let step := Nat.pow 10 places
  let low := x.whole / step * step
  let high := low + step
  match x.readsBack low, x.readsBack high with
  | true, true => some (if x.whole - low < high - x.whole then low else high)
  | true, false => some low
  | false, true => some high
  | false, false => none

/-- The whole number with the fewest significant digits that reads back as `x`. -/
def shortestWhole (x : Binary64) : Nat :=
  if x.exponent ≤ 0 then x.whole
  else ((List.range 21).reverse.findSome? x.gridPoint?).getD x.whole

end Binary64

/-- A whole number in plain decimal after rounding to double precision. -/
def decimalText : Int → String
  | .ofNat n => toString (Binary64.ofNat n).shortestWhole
  | .negSucc n => "-" ++ toString (Binary64.ofNat (n + 1)).shortestWhole

end ConnectionLeasing.Number
