import Chip8.Word
import Chip8.Text.Numeral

/-! An instruction word is four nibbles. All but the first are operand fields;
the longer fields join the last two or three of them, most significant first. -/

namespace Chip8

/-- The base-16 number spelled by a list of nibbles. -/
def joinNibbles (ns : List Nibble) : Nat := ns.foldl (fun acc d => acc * 16 + d.val) 0

/-- Fields join two or three nibbles and no other number of them. -/
structure JoinError where
  count : Nat
deriving DecidableEq

def JoinError.message (e : JoinError) : String :=
  "expected 2 or 3 nibbles, got " ++ Text.decimal e.count

/-- Joins the low nibbles of two or three integers. -/
def mergeNibbles (ns : List Int) : Except JoinError Nat :=
  if ns.length = 2 ∨ ns.length = 3 then .ok (joinNibbles (ns.map nibbleOf))
  else .error ⟨ns.length⟩

structure Operands where
  lead : Nibble
  x : Nibble
  y : Nibble
  n : Nibble
deriving DecidableEq, Repr

namespace Operands

/-- The nibbles of two bytes; of each integer only the low eight bits count. -/
def ofBytes (high low : Int) : Operands :=
  ⟨nibbleOf (high / 16), nibbleOf high, nibbleOf (low / 16), nibbleOf low⟩

def ofWord (word : Int) : Operands := ofBytes (word / 256) word

def toList (o : Operands) : List Nibble := [o.lead, o.x, o.y, o.n]

def nn (o : Operands) : Nat := joinNibbles [o.y, o.n]

def nnn (o : Operands) : Nat := joinNibbles [o.x, o.y, o.n]

end Operands

end Chip8
