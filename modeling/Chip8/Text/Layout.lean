import Chip8.Text.Style

/-! Layout: values written in a style. A gap is filled up to the width of the style;
zeros before the digits of a number are grouped with them. -/

namespace Chip8.Text

inductive LayoutError
  /-- The style is not one for the value. -/
  | unfit
  | limit (e : LimitError)
deriving DecidableEq

namespace Style

variable (room : Room)

def filler (s : Style) : Char := s.fill.getD (if s.zeroFilled then '0' else ' ')

/-- Where the gap goes if the style does not say: zeros go before the digits. -/
def place (s : Style) (usual : Align) : Align :=
  s.align.getD (if s.zeroFilled && usual = .right then .inner else usual)

/-- `head` is the sign and the lead, which an inner gap follows. -/
def pad (s : Style) (usual : Align) (head body : List Char) : Except LayoutError (List Char) :=
  let gap := s.width - (head.length + body.length)
  let blanks (n : Nat) := List.replicate n s.filler
  if !room.holds gap then .error (.limit .noRoom)
  else match s.place usual with
    | .left => .ok (head ++ body ++ blanks gap)
    | .right => .ok (blanks gap ++ head ++ body)
    | .centre => .ok (blanks (gap / 2) ++ head ++ body ++ blanks (gap - gap / 2))
    | .inner => .ok (head ++ blanks gap ++ body)

/-- Puts a separator before every group but the first; `left` digits are left in
the group, and all is backwards. -/
def separate (separator : Char) (size : Nat) : Nat → List Char → List Char
  | _, [] => []
  | 0, d :: ds => separator :: d :: separate separator size (size - 1) ds
  | left + 1, d :: ds => d :: separate separator size left ds

def groupSize (s : Style) : Nat :=
  match s.kind with
  | some (.integer base _) => if base = 10 then 3 else 4
  | _ => 3

/-- Groups digits, with as few zeros before them as make them `least` wide. -/
def spread (s : Style) (least : Nat) (ds : List Char) : List Char :=
  match s.separator with
  | none => ds
  | some c =>
    let size := s.groupSize
    let places := least - (least - 1) / (size + 1)
    (separate c size size (zeros (places - ds.length) ++ ds).reverse).reverse

/-- The sign of a number that is not negative. -/
def plus (s : Style) : List Char := (s.sign.filter (· ≠ '-')).toList

/-- A number from its lead, the digits that are grouped, and the rest. -/
def writeNumber (s : Style) (lead ds rest : List Char) : Except LayoutError (List Char) :=
  let head := s.plus ++ lead
  let zeroed := s.filler = '0' ∧ s.place .right = .inner
  let least := if zeroed then s.width - (head.length + rest.length) else 0
  if !room.holds s.width then .error (.limit .noRoom)
  else s.pad room .right head (s.spread least ds ++ rest)

/-- What stands before the digits of a base. -/
def leadOf (base : Nat) (upper : Bool) : List Char :=
  match base with
  | 2 => ['0', 'b']
  | 8 => ['0', 'o']
  | 16 => ['0', if upper then 'X' else 'x']
  | _ => []

def writePoint (s : Style) (form : PointForm) (mark : List Char) (n : Nat) :
    Except LayoutError (List Char) :=
  let places := s.precision.getD 6
  if Limit.shortCount < places then .error .unfit
  else if !room.holds s.width then .error (.limit .noRoom)
  else
    let (ds, rest) := form.write s.marked places ⟨n, 1⟩
    s.writeNumber room [] ds (rest ++ mark)

/-- A number is an integer unless the style says otherwise. -/
def writeNat (s : Style) (n : Nat) : Except LayoutError (List Char) :=
  match s.kind.getD (.integer 10 false) with
  | .text => .error .unfit
  | .integer base upper =>
    if s.precision.isSome || s.unsignedZero then .error .unfit
    else s.writeNumber room (if s.marked then leadOf base upper else [])
      (Numeral.digits { base, upper } n) []
  | .character =>
    if s.precision.isSome || s.unsignedZero || s.sign.isSome || s.marked then .error .unfit
    else if n < 0x110000 then s.writeNumber room [] [Char.ofNat n] []
    else .error (.limit .outOfRange)
  | .point form => s.writePoint room form [] n
  | .percent => s.writePoint room .fixed ['%'] (n * 100)

/-- Text is cut to the precision, and stands on the left. -/
def writeText (s : Style) (cs : List Char) : Except LayoutError (List Char) :=
  if s.kind.getD .text ≠ .text || s.sign.isSome || s.unsignedZero || s.marked ||
      s.separator.isSome || s.align = some .inner then .error .unfit
  else s.pad room .left [] (match s.precision with | some p => cs.take p | none => cs)

end Style

end Chip8.Text
