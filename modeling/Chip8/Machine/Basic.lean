import Chip8.Instruction.Standard
import Chip8.Keypad
import Chip8.Machine.Fault
import Chip8.Random
import Chip8.Rom
import Chip8.Screen.Display

/-! The machine: memory, registers, timers, return addresses, keypad, display and
random numbers. An action on it either answers or faults, and leaves a machine
behind in both cases. -/

namespace Chip8

/-- Registers and timers. Only the sixteen registers are bytes by nature. -/
structure CpuState where
  v : Vector UInt8 16 := Vector.replicate 16 0
  i : Int := 0
  pc : Int := 0x200
  delay : Int := 0
  sound : Int := 0
deriving DecidableEq

structure Machine where
  bus : Bus
  /-- The font and the main memory, as places in the pool of the bus. -/
  font : Nat
  ram : Nat
  cpu : CpuState := {}
  stack : CallStack := .standard
  /-- Instructions carried out since the last reset. -/
  cycles : Nat := 0
  /-- Block transfers move `I` past the block. -/
  advances : Bool := false
  table : InstructionTable := .standard
  keypad : Keypad := {}
  display : Display
  random : RandomSource := .lanes .seed
  rom : Option Rom := none

namespace Machine

abbrev Action := EStateM Fault Machine

def onStack {α : Type} (act : EStateM StackFault CallStack α) : Action α := fun m =>
  match act m.stack with
  | .ok a stack => .ok a { m with stack }
  | .error e stack => .error (.stack e) { m with stack }

def onBus {α : Type} (act : EStateM MemoryFault Bus α) : Action α := fun m =>
  match act m.bus with
  | .ok a bus => .ok a { m with bus }
  | .error e bus => .error (.memory e) { m with bus }

/-- Reads memory, which changes nothing. -/
def peek {α : Type} (read : Bus → Except MemoryFault α) : Action α := fun m =>
  match read m.bus with
  | .ok a => .ok a m
  | .error e => .error (.memory e) m

def setPc (pc : Int) : Action Unit := modify fun m => { m with cpu := { m.cpu with pc } }

def setIndex (i : Int) : Action Unit := modify fun m => { m with cpu := { m.cpu with i } }

def reg (x : Nibble) : Action UInt8 := return (← get).cpu.v.get x

def setReg (x : Nibble) (b : UInt8) : Action Unit :=
  modify fun m => { m with cpu := { m.cpu with v := setAt m.cpu.v x b } }

def flagRegister : Nibble := Fin.last 15

/-- The register that an offset jump adds. -/
def offsetRegister : Nibble := ⟨0, by decide⟩

/-- The flag goes in last, so it stays when it shares the destination. -/
def setRegFlag (x : Nibble) (b : UInt8) (flag : Bool) : Action Unit := do
  setReg x b
  setReg flagRegister (if flag then 1 else 0)

def readRegister (index : Int) : Action UInt8 :=
  if 0 ≤ index ∧ index < 16 then reg (nibbleOf index) else throw (.noRegister index)

def writeRegister (index value : Int) : Action Unit :=
  if 0 ≤ index ∧ index < 16 then setReg (nibbleOf index) (byteOf value)
  else throw (.noRegister index)

/-- Registers, timers and stack as new. Everything else stays. -/
def reset (m : Machine) : Machine := { m with cpu := {}, stack := m.stack.clear, cycles := 0 }

/-- One tick of both timers, which stop at zero. -/
def tick (m : Machine) : Machine :=
  let count (t : Int) := if 0 < t then t - 1 else t
  { m with cpu := { m.cpu with delay := count m.cpu.delay, sound := count m.cpu.sound } }

def decode (m : Machine) (word : Int) : Option Instruction := m.table.lookup word

end Machine

end Chip8
