import Chip8.CallStack
import Chip8.Memory.Fault

/-! Faults that stop an instruction. -/

namespace Chip8

inductive Fault
  | memory (f : MemoryFault)
  | stack (f : StackFault)
  | illegal (pc : Int) (opcode : Nat)
  /-- A known instruction that is not carried out. -/
  | unimplemented (pc : Int) (opcode : Nat)
  | noRoutine (name : String)
  | noRegister (index : Int)
deriving DecidableEq, Repr

namespace Fault

open Text

/-- The name that traces and fault reports give to the kind of fault. -/
def name : Fault → String
  | memory _ => "MemoryAccessError"
  | stack _ => "StackError"
  | illegal _ _ => "IllegalOpcodeError"
  | unimplemented _ _ => "UnimplementedOpcodeError"
  | noRoutine _ => "CPUError"
  | noRegister _ => "CPUError"

def message : Fault → String
  | memory f => f.message
  | stack f => f.message
  | illegal pc opcode => "illegal instruction " ++ upperHex 4 opcode ++ " at " ++ addressText pc
  | unimplemented pc opcode =>
    "instruction " ++ upperHex 4 opcode ++ " at " ++ addressText pc ++ " is not implemented"
  | noRoutine name => "handler \x27" ++ name ++ "\x27 not implemented"
  | noRegister index => "register V" ++ decimal index ++ " out of range"

end Fault

end Chip8
