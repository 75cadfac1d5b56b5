/-!
# Non-negative double-precision numbers

Values `mantissa * 2 ^ exponent` with 53 significant bits, and the operations reports need, each
rounded once to the nearest value with ties to the even mantissa. Exponents are not bounded: the
quotients of two counts below `2 ^ 64` stay far inside the range of normal numbers.

* `roundQuotient_eq`: a rounded quotient is the floor or the one above it.
* `roundQuotient_exact`: nothing is lost where the division is exact.
-/

namespace ConnectionLeasing.Number

/-- `n / d` to the nearest integer, a half to the even neighbour. -/
def roundQuotient (n d : Nat) : Nat :=
  let q := n / d
  let r := n % d
  if d < 2 * r ∨ (2 * r = d ∧ q % 2 = 1) then q + 1 else q

theorem roundQuotient_eq (n d : Nat) :
    roundQuotient n d = n / d ∨ roundQuotient n d = n / d + 1 := by
  unfold roundQuotient
  dsimp only
  split
  · exact .inr rfl
  · exact .inl rfl

theorem roundQuotient_exact (q d : Nat) (hd : 0 < d) : roundQuotient (q * d) d = q := by
  simp [roundQuotient, Nat.mul_div_cancel q hd, Nat.ne_of_lt hd]

/-- A non-negative number with a binary exponent. -/
structure Binary64 where
  mantissa : Nat
  exponent : Int
  deriving DecidableEq, Inhabited

namespace Binary64

def zero : Binary64 := ⟨0, 0⟩

/-- `n / (d * 2 ^ e)` as a quotient of naturals. -/
def scaled (n d : Nat) (e : Int) : Nat × Nat :=
  if 0 ≤ e then (n, d <<< e.toNat) else (n <<< (-e).toNat, d)

/-- The quotient `n / d` to 53 bits; zero if either is zero. -/
def ofRatio (n d : Nat) : Binary64 :=
  if n = 0 ∨ d = 0 then zero
  else
    let high : Int := (n.log2 : Int) - d.log2 - 52
    let (a, b) := scaled n d high
    let e := if a < b <<< 52 then high - 1 else high
    let (a, b) := scaled n d e
    let m := roundQuotient a b
    if m = 1 <<< 53 then ⟨1 <<< 52, e + 1⟩ else ⟨m, e⟩

def ofNat (n : Nat) : Binary64 := ofRatio n 1

/-- Multiplication by a power of two, which is exact. -/
def shift (x : Binary64) (k : Int) : Binary64 := ⟨x.mantissa, x.exponent + k⟩

def div (x y : Binary64) : Binary64 :=
  (ofRatio x.mantissa y.mantissa).shift (x.exponent - y.exponent)

def mul (x y : Binary64) : Binary64 :=
  (ofRatio (x.mantissa * y.mantissa) 1).shift (x.exponent + y.exponent)

/-- The order of the numbers that two values stand for. -/
def lt (x y : Binary64) : Bool :=
  let low := min x.exponent y.exponent
  x.mantissa <<< (x.exponent - low).toNat < y.mantissa <<< (y.exponent - low).toNat

/-- The interchange encoding of zero or a normal number. -/
def bits (x : Binary64) : Nat :=
  if x.mantissa = 0 then 0
  else ((x.exponent + 1075).toNat <<< 52) + (x.mantissa - 1 <<< 52)

/-- The encoding as sixteen hexadecimal digits. -/
def bitsText (x : Binary64) : String :=
  String.ofList ((Nat.toDigits 16 x.bits).leftpad 16 '0')

/-- Tenths, rounded from the exact value. -/
def tenths (x : Binary64) : Nat :=
  if 0 ≤ x.exponent then (x.mantissa * 10) <<< x.exponent.toNat
  else roundQuotient (x.mantissa * 10) (1 <<< (-x.exponent).toNat)

/-- Plain decimal with one place. -/
def oneDecimal (x : Binary64) : String := s!"{x.tenths / 10}.{x.tenths % 10}"

end Binary64

end ConnectionLeasing.Number
