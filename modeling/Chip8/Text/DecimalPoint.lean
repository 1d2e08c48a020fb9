import Chip8.Text.Fraction
import Chip8.Text.Numeral

/-! Numbers with a decimal point: with a fixed number of places behind it, with an
exponent, or in the shorter of these forms. Places that are left out are rounded to
the nearest number, and of two to the one whose last place is even. -/

namespace Chip8.Text

inductive PointForm
  | fixed
  | scientific (upper : Bool)
  /-- As many digits as `places` says, without the zeros that end them, and an
  exponent where these digits do not reach the point. -/
  | general (upper : Bool)
deriving DecidableEq, Repr

namespace PointForm

def ofChar? : Char → Option PointForm
  | 'f' | 'F' => some fixed
  | 'e' => some (scientific false)
  | 'E' => some (scientific true)
  | 'g' => some (general false)
  | 'G' => some (general true)
  | _ => none

/-- The first digits of a number, rounded, and the exponent of the first of them. What
is missing of the digits that were asked for are zeros. -/
def leading (places : Nat) (v : Fraction) : List Char × Int :=
  if v.num = 0 then (['0'], 0)
  else
    let e := v.magnitude 10
    let places := min places (e + 1 + v.decimals (places - 1 - e).toNat).toNat
    let ds := Nat.toDigits 10 (v.scale 10 (places - 1 - e)).nearest
    (ds.take places, if places < ds.length then e + 1 else e)

/-- The digits of a number, rounded, of which the last `places` follow the point. -/
def decimal (places : Nat) (v : Fraction) : List Char :=
  let exact := v.decimals places
  let ds := Nat.toDigits 10 (v.scale 10 exact).nearest ++ zeros (places - exact)
  zeros (places + 1 - ds.length) ++ ds

/-- The digits before the point and behind it, if the first digit has the exponent. -/
def spell (ds : List Char) (e : Int) : List Char × List Char :=
  if e < 0 then (['0'], zeros (-e - 1).toNat ++ ds)
  else (ds.take (e.toNat + 1) ++ zeros (e.toNat + 1 - ds.length), ds.drop (e.toNat + 1))

/-- Small numbers need no exponent for up to four places, large ones as far as the
digits reach. -/
def isPlain (digits : Nat) (e : Int) : Bool := -4 ≤ e ∧ e < digits

/-- Without digits behind it the point is written only if it is to be kept. -/
def point (keep : Bool) (fraction : List Char) : List Char :=
  if fraction.isEmpty && !keep then [] else '.' :: fraction

def exponent (upper : Bool) (e : Int) : List Char :=
  (if upper then 'E' else 'e') :: Numeral.chars { plus := ['+'], width := 3 } e

def dropZeros (ds : List Char) : List Char := (ds.reverse.dropWhile (· = '0')).reverse

/-- The digits before the point, and the rest. `keep` keeps the point, and with the
general form the zeros too. -/
def write (keep : Bool) (places : Nat) (v : Fraction) : PointForm → List Char × List Char
  | fixed =>
    let ds := decimal places v
    (ds.take (ds.length - places), point keep (ds.drop (ds.length - places)))
  | scientific upper =>
    let (ds, e) := leading (places + 1) v
    let fraction := ds.drop 1 ++ zeros (places + 1 - ds.length)
    (ds.take 1, point keep fraction ++ exponent upper e)
  | general upper =>
    let places := max places 1
    let (ds, e) := leading places v
    let ds := if keep then ds ++ zeros (places - ds.length) else dropZeros ds
    if isPlain places e then
      let (whole, fraction) := spell ds e
      (whole, point keep fraction)
    else (ds.take 1, point keep (ds.drop 1) ++ exponent upper e)

end PointForm

end Chip8.Text
