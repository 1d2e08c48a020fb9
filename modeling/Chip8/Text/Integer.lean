import Chip8.Text.Blank
import Chip8.Text.DecimalDigit

/-! Reading integers: blanks around, a sign, and decimal digits of any script
with single underscores between them. Separators do not count as blanks here. A
number of more than 4300 digits is not read. -/

namespace Chip8.Text

/-- The values of the digits. `between` says that a digit stands right before, so
that an underscore may come. -/
def digitValues? (between : Bool) : List Char → Option (List Nat)
  | [] => if between then some [] else none
  | c :: cs =>
    if c = '_' then if between then digitValues? false cs else none
    else do
      let d ← digitValue? c
      return d :: (← digitValues? true cs)

def naturalOf? (cs : List Char) : Option Nat := do
  let ds ← digitValues? false cs
  if 4300 < ds.length then none
  else return ds.foldl (fun acc d => acc * 10 + d) 0

def integerOf? (s : String) : Option Int :=
  match trim (fun c => isBlank c && !isSeparator c) s.toList with
  | '-' :: cs => (naturalOf? cs).map fun n => -(n : Int)
  | '+' :: cs => (naturalOf? cs).map Int.ofNat
  | cs => (naturalOf? cs).map Int.ofNat

end Chip8.Text
