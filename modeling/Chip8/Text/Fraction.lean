/-! Fractions of whole numbers: their order of magnitude, and the whole number
nearest to them. -/

namespace Chip8.Text

/-- A quotient; the divisor is not zero. -/
structure Fraction where
  num : Nat
  den : Nat := 1

namespace Fraction

def floor (v : Fraction) : Nat := v.num / v.den

/-- The nearest whole number; of two the even one. -/
def nearest (v : Fraction) : Nat :=
  let q := v.num / v.den
  let r := v.num % v.den
  if 2 * r > v.den ∨ (2 * r = v.den ∧ q % 2 = 1) then q + 1 else q

/-- How many of the decimals up to `most` may differ from zero: a fraction over a power
of two has no more of them than the power says. -/
def decimals (v : Fraction) (most : Nat) : Nat :=
  if v.den = 1 <<< v.den.log2 then min most v.den.log2 else most

/-- Times a power of the base. -/
def scale (v : Fraction) (base : Nat) (k : Int) : Fraction :=
  if 0 ≤ k then ⟨v.num * Nat.pow base k.toNat, v.den⟩
  else ⟨v.num, v.den * Nat.pow base (-k).toNat⟩

/-- The exponent of the largest power of the base that is not above the fraction,
which is not zero. The lengths of both numbers leave two exponents to choose from. -/
def magnitude (v : Fraction) (base : Nat) : Int :=
  let length (n : Nat) : Int := (Nat.toDigits base n).length
  let k := length v.num - length v.den
  if (v.scale base (-k)).floor = 0 then k - 1 else k

end Fraction

end Chip8.Text
