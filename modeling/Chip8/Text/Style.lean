import Chip8.Limit
import Chip8.Text.DecimalDigit
import Chip8.Text.DecimalPoint

/-! Styles: how a value is laid out. A style is read from an alignment, which may
follow a filler, a sign, marks, a width, a separator of digit groups, a precision
and a kind, in this order and all optional. -/

namespace Chip8.Text

inductive Align
  | left
  | right
  | centre
  /-- The gap is between the sign and the digits. -/
  | inner
deriving DecidableEq, Repr

def Align.ofChar? : Char → Option Align
  | '<' => some left
  | '>' => some right
  | '^' => some centre
  | '=' => some inner
  | _ => none

/-- What a value is written as. -/
inductive StyleKind
  | text
  | integer (base : Nat) (upper : Bool)
  | character
  | point (form : PointForm)
  | percent
deriving DecidableEq, Repr

def StyleKind.ofChar? : Char → Option StyleKind
  | 's' => some text
  | 'd' | 'n' => some (integer 10 false)
  | 'b' => some (integer 2 false)
  | 'o' => some (integer 8 false)
  | 'x' => some (integer 16 false)
  | 'X' => some (integer 16 true)
  | 'c' => some character
  | '%' => some percent
  | c => (PointForm.ofChar? c).map point

structure Style where
  fill : Option Char := none
  align : Option Align := none
  sign : Option Char := none
  /-- Zero has no sign. -/
  unsignedZero : Bool := false
  /-- Digits have a lead, or a point that is kept. -/
  marked : Bool := false
  zeroFilled : Bool := false
  width : Nat := 0
  separator : Option Char := none
  precision : Option Nat := none
  kind : Option StyleKind := none

namespace Style

def takeOne (p : Char → Bool) : List Char → Option Char × List Char
  | [] => (none, [])
  | c :: cs => if p c then (some c, cs) else (none, c :: cs)

/-- A filler is what stands before an alignment, even if it is one itself. -/
def readAlign : List Char → Option Char × Option Align × List Char
  | [] => (none, none, [])
  | c :: cs => match cs.head?.bind Align.ofChar? with
    | some a => (some c, some a, cs.drop 1)
    | none => match Align.ofChar? c with
      | some a => (none, some a, cs)
      | none => (none, none, c :: cs)

/-- A number that places are counted by; no digits are no number. -/
def readCount? (cs : List Char) : Option (Option Nat × List Char) :=
  let (ds, rest) := cs.span isDecimalDigit
  let n := (ds.filterMap digitValue?).foldl (fun acc d => acc * 10 + d) 0
  if Limit.count < n then none
  else some (if ds.isEmpty then none else some n, rest)

def readPrecision? : List Char → Option (Option Nat × List Char)
  | '.' :: cs => do
    let (n, cs) ← readCount? cs
    return (some (← n), cs)
  | cs => some (none, cs)

/-- Which kinds have their digits in groups. Binary digits are separated by an
underscore only. -/
def separates (separator kind : Char) : Bool :=
  kind ∈ ['d', 'e', 'E', 'f', 'F', 'g', 'G', '%'] ∨
    separator = '_' ∧ kind ∈ ['b', 'o', 'x', 'X']

def readKind? (separator : Option Char) : List Char → Option (Option StyleKind)
  | [] => some none
  | [c] =>
    if separator.all (separates · c) then (StyleKind.ofChar? c).map some else none
  | _ => none

def read? (cs : List Char) : Option Style := do
  let (fill, align, cs) := readAlign cs
  let (sign, cs) := takeOne (fun c => c = '+' ∨ c = '-' ∨ c = ' ') cs
  let (unsigned, cs) := takeOne (· = 'z') cs
  let (mark, cs) := takeOne (· = '#') cs
  let (zero, cs) := if fill.isSome then (none, cs) else takeOne (· = '0') cs
  let (width, cs) ← readCount? cs
  let (separator, cs) := takeOne (fun c => c = ',' ∨ c = '_') cs
  let (precision, cs) ← readPrecision? cs
  return { fill, align, sign, unsignedZero := unsigned.isSome, marked := mark.isSome,
           zeroFilled := zero.isSome, width := width.getD 0, separator, precision,
           kind := ← readKind? separator cs }

end Style

end Chip8.Text
