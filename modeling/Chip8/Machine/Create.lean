import Chip8.Machine.Basic
import Chip8.Screen.Glyph

/-! A machine as it is switched on: the font at the bottom of memory, main memory
above it, and a program if there is one. -/

namespace Chip8.Machine

def spaceSize : Nat := 0x1000

structure Options where
  advances : Bool := false
  rom : Option (List UInt8) := none
  romName : String := ""
  display : Display := .headless .standard
  random : RandomSource := .lanes .seed

/-- Memory without a program, and the places of the font and of main memory. -/
def memory : Except MemoryFault (Bus × Nat × Nat) := do
  let fontRegion ← Region.ofBytes 0 Glyph.font.toArray
  let ramStart := fontRegion.stop + 1
  let ramRegion ← Region.blank ramStart (spaceSize - ramStart)
  let (font, bus) := Bus.addBlock {} (.region .font fontRegion)
  let (ram, bus) := bus.addBlock (.region .mainRam ramRegion)
  let setup : Bus.Action Unit := do
    Bus.allocate spaceSize
    Bus.register font
    Bus.register ram
  match setup bus with
  | .ok () bus => .ok (bus, font, ram)
  | .error e _ => .error e

def create (o : Options) : Except LoadError Machine := do
  let (bus, font, ram) ← memory.mapError .memory
  let m : Machine :=
    { bus, font, ram, advances := o.advances, display := o.display, random := o.random }
  match o.rom with
  | none => return m
  | some data => match Rom.load data o.romName bus with
    | .error e _ => .error e
    | .ok rom bus => return { m with bus, rom := some rom }

/-- What switching the machine on prints. -/
def createLog (c : Debug.Categories) (m : Machine) : List String :=
  match m.rom with
  | some rom => rom.loadLog c
  | none => []

end Chip8.Machine
