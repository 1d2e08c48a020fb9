import Chip8.Text.DecimalPoint
import Chip8.Text.Integer

/-! Floating point numbers of double precision. Such a number is 53 binary digits
and a power of two, down to the power -1074. Its text has the fewest digits that read
back as the number, and of these the nearest to it. -/

namespace Chip8.Text

structure Binary64 where
  negative : Bool := false
  mantissa : Nat
  exponent : Int
deriving DecidableEq

namespace Binary64

/-- The nearest number, if the fraction is within their reach. -/
def ofFraction? (v : Fraction) : Option Binary64 :=
  if v.num = 0 then some { mantissa := 0, exponent := -1074 }
  else
    let e := max (v.magnitude 2 - 52) (-1074)
    let m := (v.scale 2 (-e)).nearest
    let (m, e) := if m = 9007199254740992 then (4503599627370496, e + 1) else (m, e)
    if 971 < e then none else some { mantissa := m, exponent := e }

def withSign (negative : Bool) (x : Binary64) : Binary64 := { x with negative }

def ofInt? (v : Int) : Option Binary64 := (ofFraction? ⟨v.natAbs, 1⟩).map (withSign (v < 0))

/-- Reads a sign, digits, places behind a point and a decimal exponent. -/
def ofText? (s : String) : Option Binary64 := do
  let (negative, cs) := match s.toList with
    | '-' :: cs => (true, cs)
    | cs => (false, cs)
  let (whole, cs) := cs.span Char.isDigit
  let (places, cs) := match cs with
    | '.' :: cs => cs.span Char.isDigit
    | cs => ([], cs)
  let e ← match cs with
    | [] => some 0
    | 'e' :: cs | 'E' :: cs => integerOf? (String.ofList cs)
    | _ => none
  let v : Fraction := ⟨Nat.ofDigitChars 10 (whole ++ places) 0, 1⟩
  (ofFraction? (v.scale 10 (e - places.length))).map (withSign negative)

/-- The number without its sign. -/
def size (x : Binary64) : Fraction := Fraction.scale ⟨x.mantissa, 1⟩ 2 x.exponent

/-- The whole number towards zero. -/
def truncated (x : Binary64) : Int := if x.negative then -x.size.floor else x.size.floor

/-- The number `n` times a power of ten reads back as `x`. -/
def isReadFrom (x : Binary64) (n : Nat) (k : Int) : Bool :=
  ofFraction? (Fraction.scale ⟨n, 1⟩ 10 k) = some (x.withSign false)

/-- A multiple of the power of ten that reads back as the number. Only the two
neighbours of the number come into question, and first the nearer one. -/
def multiple? (x : Binary64) (k : Int) : Option Nat :=
  let v := x.size.scale 10 (-k)
  let near := v.nearest
  let far := 2 * v.floor + 1 - near
  if x.isReadFrom near k then some near
  else if x.isReadFrom far k then some far
  else none

/-- The fewest digits that read back, and the exponent of the first of them. Seventeen
are enough. -/
def shortest (x : Binary64) : List Char × Int :=
  if x.mantissa = 0 then (['0'], 0)
  else
    let e := x.size.magnitude 10
    let found := (List.range 17).findSome? fun (more : Nat) =>
      (x.multiple? (e - more)).map fun n =>
        let ds := Nat.toDigits 10 n
        (PointForm.dropZeros ds, e - more + ds.length - 1)
    found.getD (PointForm.leading 17 x.size)

/-- There is always a digit behind the point, unless there is an exponent. -/
def chars (x : Binary64) : List Char :=
  let (ds, e) := x.shortest
  (if x.negative then ['-'] else []) ++
    if PointForm.isPlain 16 e then
      let (whole, fraction) := PointForm.spell ds e
      whole ++ '.' :: (if fraction.isEmpty then ['0'] else fraction)
    else ds.take 1 ++ PointForm.point false (ds.drop 1) ++ PointForm.exponent false e

def text (x : Binary64) : String := String.ofList x.chars

end Binary64

end Chip8.Text
