import Chip8.Machine.Basic

/-! The state of the processor in three lines. -/

namespace Chip8.Machine

open Text

def registerText (v : Vector UInt8 16) : String :=
  " ".intercalate (v.toList.zipIdx.map fun (b, k) =>
    "V" ++ upperHex 0 k ++ "=" ++ upperHex 2 b.toNat)

/-- The return addresses, or a dash for none. -/
def stackText (s : CallStack) : String :=
  if s.toList.isEmpty then "-"
  else " ".intercalate (s.toList.map fun a => upperHex 3 a.toNat)

def summary (m : Machine) : List String := [
  "PC=" ++ upperHex 4 m.cpu.pc ++ " I=" ++ upperHex 4 m.cpu.i ++ " SP="
    ++ paddedDecimal 2 m.stack.depth ++ " DT=" ++ upperHex 2 m.cpu.delay ++ " ST="
    ++ upperHex 2 m.cpu.sound,
  registerText m.cpu.v,
  "stack: " ++ stackText m.stack]

end Chip8.Machine
