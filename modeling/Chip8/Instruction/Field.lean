import Chip8.Operands

/-! The operand fields that the holes of a listing template name. -/

namespace Chip8

inductive Field
  | x
  | y
  | n
  | nn
  | nnn
deriving DecidableEq, Repr

namespace Field

def ofName? : List Char → Option Field
  | ['x'] => some x
  | ['y'] => some y
  | ['n'] => some n
  | ['n', 'n'] => some nn
  | ['n', 'n', 'n'] => some nnn
  | _ => none

def read (o : Operands) : Field → Nat
  | x => o.x.val
  | y => o.y.val
  | n => o.n.val
  | nn => o.nn
  | nnn => o.nnn

end Field

end Chip8
