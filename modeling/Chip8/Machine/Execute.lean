import Chip8.Machine.Basic
import Chip8.Screen.Glyph

/-! What each routine does to the machine. When it starts the program counter
already stands behind the instruction. -/

namespace Chip8

namespace Machine

/-- Passes over the next instruction if the test holds. -/
def skipIf (test : Bool) : Action Unit := do
  if test then setPc (((← get).cpu.pc + 2) % 65536)

/-- The first registers, up to and including `Vx`. -/
def registersTo (m : Machine) (x : Nibble) : List UInt8 := m.cpu.v.toList.take (x.val + 1)

/-- Puts bytes into the registers from `Vk` on. -/
def fillRegisters (k : Nat) : List UInt8 → Vector UInt8 16 → Vector UInt8 16
  | [], v => v
  | b :: bs, v => fillRegisters (k + 1) bs (v.setIfInBounds k b)

/-- After a block transfer of `V0` to `Vx`. -/
def advance (x : Nibble) : Action Unit := do
  let m ← get
  if m.advances then setIndex ((m.cpu.i + (x.val + 1)) % 65536)

/-- Hundreds, tens and ones. -/
def decimalDigits (b : UInt8) : List Int :=
  [(b.toNat / 100 : Nat), (b.toNat / 10 % 10 : Nat), (b.toNat % 10 : Nat)]

end Machine

namespace Routine

open Machine

/-- Carries out the instruction `opcode` that was fetched from `pc`. -/
def run (r : Routine) (pc : Int) (opcode : Nat) : Machine.Action Unit :=
  let o := Operands.ofWord opcode
  match r with
  | clearScreen => modify fun m => { m with display := m.display.clear }
  | returnFrom => do setPc (← onStack CallStack.pop).toNat
  | machineCall => pure ()
  | jump => setPc o.nnn
  | call => do
    onStack (CallStack.push (← get).cpu.pc)
    setPc o.nnn
  | jumpOffset => do setPc (((← reg offsetRegister).toNat + o.nnn : Nat) % 65536)
  | skipEqualImmediate => do skipIf ((← reg o.x).toNat == o.nn)
  | skipUnequalImmediate => do skipIf ((← reg o.x).toNat != o.nn)
  | skipEqual => do skipIf ((← reg o.x) == (← reg o.y))
  | skipUnequal => do skipIf ((← reg o.x) != (← reg o.y))
  | skipPressed => do
    let k := nibbleOf (← reg o.x).toNat
    skipIf ((← get).keypad.isDown k)
  | skipReleased => do
    let k := nibbleOf (← reg o.x).toNat
    skipIf (!(← get).keypad.isDown k)
  | loadImmediate => setReg o.x (byteOf o.nn)
  | addImmediate => do setReg o.x ((← reg o.x) + byteOf o.nn)
  | copy => do setReg o.x (← reg o.y)
  | or => do setReg o.x ((← reg o.x) ||| (← reg o.y))
  | and => do setReg o.x ((← reg o.x) &&& (← reg o.y))
  | xor => do setReg o.x ((← reg o.x) ^^^ (← reg o.y))
  | add => do
    let a ← reg o.x
    let b ← reg o.y
    setRegFlag o.x (a + b) (decide (255 < a.toNat + b.toNat))
  | subtract => do
    let a ← reg o.x
    let b ← reg o.y
    setRegFlag o.x (a - b) (decide (b ≤ a))
  | subtractFrom => do
    let a ← reg o.x
    let b ← reg o.y
    setRegFlag o.x (b - a) (decide (a ≤ b))
  | shiftRight => do
    let b ← reg o.y
    setRegFlag o.x (b >>> 1) (b.toNat % 2 == 1)
  | shiftLeft => do
    let b ← reg o.y
    setRegFlag o.x (b <<< 1) (decide (128 ≤ b.toNat))
  | random => do
    let (v, source) := (← get).random.next
    modify fun m => { m with random := source }
    setReg o.x (byteOf v &&& byteOf o.nn)
  | loadIndex => setIndex o.nnn
  | addIndex => do setIndex (((← get).cpu.i + (← reg o.x).toNat) % 65536)
  | loadGlyph => do setIndex (Glyph.address (← reg o.x).toNat)
  | storeDecimal => do
    let ds := decimalDigits (← reg o.x)
    onBus (Bus.storeBlock (← get).cpu.i ds)
  | storeRegisters => do
    let m ← get
    onBus (Bus.storeBlock m.cpu.i ((m.registersTo o.x).map fun b => (b.toNat : Int)))
    advance o.x
  | loadRegisters => do
    let m ← get
    let bs ← peek (·.loadBlock m.cpu.i (o.x.val + 1))
    modify fun m => { m with cpu := { m.cpu with v := fillRegisters 0 bs m.cpu.v } }
    advance o.x
  | draw => do
    let m ← get
    let rows ← peek (·.loadBlock m.cpu.i o.n.val)
    let (hit, display) := m.display.drawRows (← reg o.x).toNat (← reg o.y).toNat rows
    modify fun m => { m with display }
    setReg flagRegister (if hit then 1 else 0)
  | readDelay => do setReg o.x (byteOf (← get).cpu.delay)
  | setDelay => do
    let t ← reg o.x
    modify fun m => { m with cpu := { m.cpu with delay := t.toNat } }
  | setSound => do
    let t ← reg o.x
    modify fun m => { m with cpu := { m.cpu with sound := t.toNat } }
  | waitKey => throw (.unimplemented pc opcode)

end Routine

end Chip8
