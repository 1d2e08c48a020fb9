import Chip8.Memory.Block

/-! The memory bus. Every address of the space is served by at most one block;
a block that is registered takes over its whole range. Blocks are kept in a pool
and go by their place in it, so a block stays the same block however often it is
registered. -/

namespace Chip8

structure Bus (γ : Type := Empty) where
  blocks : Array (Block γ) := #[]
  /-- The block that serves each address; none before a space is allocated. -/
  space : Option (Array (Option Nat)) := none
  /-- The last block of each kind that was registered. -/
  registry : List (BlockKind × Nat) := []

namespace Bus

/-- What is done to a bus with guests. -/
abbrev Operation (γ : Type) := EStateM MemoryFault (Bus γ)

abbrev Action := Operation Empty

variable {γ : Type} [Addressable γ]

/-- Puts a block into the pool. It serves no address yet. -/
def addBlock (m : Bus γ) (b : Block γ) : Nat × Bus γ :=
  (m.blocks.size, { m with blocks := m.blocks.push b })

def allocate (capacity : Int) : Operation γ Unit := fun m =>
  if 0 < capacity ∧ capacity ≤ 65536 then
    .ok () { m with space := some (Array.replicate capacity.toNat none) }
  else .error (.badCapacity capacity) m

def allocated (m : Bus γ) : Except MemoryFault (Array (Option Nat)) :=
  match m.space with
  | some s => .ok s
  | none => .error .unallocated

def capacity (m : Bus γ) : Except MemoryFault Nat := return (← m.allocated).size

/-- Hands `count` addresses from `start` on to one block. -/
def claim (id start : Nat) : Nat → Array (Option Nat) → Array (Option Nat)
  | 0, s => s
  | count + 1, s => claim id (start + 1) count (s.setIfInBounds start (some id))

def register (id : Nat) : Operation γ Unit := fun m =>
  match m.allocated with
  | .error e => .error e m
  | .ok s => match m.blocks[id]? with
    | none => .ok () m
    | some b =>
      if b.stop < b.start then .error .stopBeforeStart m
      else if b.start < 0 ∨ s.size ≤ b.stop then .error (.exceedsSpace b.start b.stop) m
      else
        let s := claim id b.start.toNat (b.stop - b.start + 1).toNat s
        .ok () { m with space := some s, registry := (b.kind, id) :: m.registry }

/-- The block last registered of a kind. -/
def find? (m : Bus γ) (kind : BlockKind) : Option Nat := m.registry.lookup kind

/-- The block that serves an address, with its place in the pool. -/
def serving (m : Bus γ) (a : Int) : Except MemoryFault (Nat × Block γ) := do
  let s ← m.allocated
  if a < 0 ∨ s.size ≤ a then throw (.outsideSpace a s.size)
  match s.getD a.toNat none with
  | none => throw (.unmapped a)
  | some id => match m.blocks[id]? with
    | none => throw (.unmapped a)
    | some b => return (id, b)

def load8 (m : Bus γ) (a : Int) : Except MemoryFault UInt8 := do
  let (_, b) ← m.serving a
  return byteOf (← b.load8 a)

def load16 (m : Bus γ) (a : Int) : Except MemoryFault Nat := do
  let high ← m.load8 a
  let low ← m.load8 (a + 1)
  return wordFrom high low

def setBlock (m : Bus γ) (id : Nat) (b : Block γ) : Bus γ :=
  { m with blocks := m.blocks.setIfInBounds id b }

def store8 (a v : Int) : Operation γ Unit := fun m =>
  match m.serving a with
  | .error e => .error e m
  | .ok (id, b) => match b.store8 a v with
    | .error e => .error e m
    | .ok b => .ok () (m.setBlock id b)

/-- High byte first; it stays even when the low byte is refused. -/
def store16 (a v : Int) : Operation γ Unit := do
  store8 a (byteOf (v / 256)).toNat
  store8 (a + 1) (byteOf v).toNat

def checkRange (m : Bus γ) (start length : Int) : Except MemoryFault Unit := do
  let s ← m.allocated
  if length < 0 then throw .negativeLength
  if start < 0 ∨ s.size < start + length then throw (.blockOutside start length s.size)

def loadFrom (m : Bus γ) (start : Int) : Nat → Except MemoryFault (List UInt8)
  | 0 => .ok []
  | n + 1 => do
    let b ← m.load8 start
    return b :: (← m.loadFrom (start + 1) n)

def loadBlock (m : Bus γ) (start length : Int) : Except MemoryFault (List UInt8) := do
  m.checkRange start length
  m.loadFrom start length.toNat

/-- Every address of the range is served by something other than a font. -/
def checkWritable (m : Bus γ) (start : Int) : Nat → Except MemoryFault Unit
  | 0 => .ok ()
  | n + 1 => do
    let (_, b) ← m.serving start
    if b.isFont then throw (.readOnly start)
    m.checkWritable (start + 1) n

def storeFrom (start : Int) : List Int → Operation γ Unit
  | [] => pure ()
  | v :: vs => do
    store8 start v
    storeFrom (start + 1) vs

/-- The whole range is checked before the first byte is written. -/
def storeBlock (start : Int) (data : List Int) : Operation γ Unit := fun m =>
  match m.checkRange start data.length with
  | .error e => .error e m
  | .ok () => match m.checkWritable start data.length with
    | .error e => .error e m
    | .ok () => storeFrom start data m

/-- Runs an operation of one block on the block itself, past the address map. -/
def onBlock (id : Nat) (act : EStateM MemoryFault (Block γ) Unit) : Operation γ Unit := fun m =>
  match m.blocks[id]? with
  | none => .ok () m
  | some b => match act b with
    | .ok _ b => .ok () (m.setBlock id b)
    | .error e b => .error e (m.setBlock id b)

end Bus

end Chip8
