import Chip8.Word

/-! Random bytes. The generator keeps four byte lanes; each draw mixes the
oldest with the newest and moves the others along. A script of fixed numbers can
stand in for it. -/

namespace Chip8

structure Lanes where
  x : UInt8
  y : UInt8
  z : UInt8
  a : UInt8
deriving DecidableEq, Repr

namespace Lanes

def seed : Lanes := ⟨0, 0, 0, 1⟩

def next (l : Lanes) : Lanes :=
  let t := l.x ^^^ (l.x <<< 4)
  ⟨l.y, l.z, l.a, l.a ^^^ t ^^^ (l.a >>> 1) ^^^ (t <<< 1)⟩

def toList (l : Lanes) : List UInt8 := [l.x, l.y, l.z, l.a]

/-- The lanes when `n` numbers have been drawn. -/
def after : Nat → Lanes → Lanes
  | 0, l => l
  | n + 1, l => after n l.next

/-- The next `n` numbers, and the lanes after them. -/
def draw : Nat → Lanes → List UInt8 × Lanes
  | 0, l => ([], l)
  | n + 1, l =>
    let l := l.next
    let (vs, l') := draw n l
    (l.a :: vs, l')

end Lanes

inductive RandomSource
  | lanes (l : Lanes)
  /-- The numbers as they are, over and over. -/
  | script (values : List Int) (drawn : Nat)

namespace RandomSource

def next : RandomSource → Int × RandomSource
  | lanes l => (l.next.a.toNat, lanes l.next)
  | script values drawn => (values.getD (drawn % values.length) 0, script values (drawn + 1))

end RandomSource

end Chip8
