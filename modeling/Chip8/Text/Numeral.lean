/-! Numbers in text. A numeral is a sign, an optional lead such as `0x`, and
digits; zeros go between the lead and the digits until the whole is as wide as
asked. The sign and the lead count towards the width. -/

namespace Chip8.Text

structure Numeral where
  base : Nat := 10
  upper : Bool := false
  /-- Written between the sign and the digits. -/
  lead : List Char := []
  /-- The sign of a number that is not negative. -/
  plus : List Char := []
  /-- The least number of digits. -/
  places : Nat := 0
  width : Nat := 0

def zeros (n : Nat) : List Char := List.replicate n '0'

namespace Numeral

def digits (f : Numeral) (n : Nat) : List Char :=
  let ds := Nat.toDigits f.base n
  let ds := zeros (f.places - ds.length) ++ ds
  if f.upper then ds.map Char.toUpper else ds

/-- The sign and the lead. -/
def head (f : Numeral) (v : Int) : List Char :=
  (if v < 0 then ['-'] else f.plus) ++ f.lead

def chars (f : Numeral) (v : Int) : List Char :=
  let head := f.head v
  let ds := f.digits v.natAbs
  head ++ zeros (f.width - (head.length + ds.length)) ++ ds

def render (f : Numeral) (v : Int) : String := String.ofList (f.chars v)

end Numeral

/-- Plain decimal digits. -/
def decimal (v : Int) : String := Numeral.render { width := 0 } v

def paddedDecimal (width : Nat) (v : Int) : String := Numeral.render { width } v

def upperHex (width : Nat) (v : Int) : String :=
  Numeral.render { base := 16, upper := true, width } v

def lowerHex (width : Nat) (v : Int) : String := Numeral.render { base := 16, width } v

/-- Lower-case hexadecimal behind `0x`, which counts towards the width. -/
def markedHex (width : Nat) (v : Int) : String :=
  Numeral.render { base := 16, lead := ['0', 'x'], width } v

/-- An address as messages write it. -/
def addressText (a : Int) : String := markedHex 5 a

/-- Blanks after the text until it is `width` characters long. -/
def padRight (width : Nat) (s : String) : String :=
  s ++ String.ofList (List.replicate (width - s.length) ' ')

end Chip8.Text
