/-! The routines that instructions name. -/

namespace Chip8

inductive Routine
  | clearScreen | returnFrom | machineCall | jump | call | jumpOffset
  | skipEqualImmediate | skipUnequalImmediate | skipEqual | skipUnequal
  | skipPressed | skipReleased
  | loadImmediate | addImmediate | copy | or | and | xor
  | add | subtract | subtractFrom | shiftRight | shiftLeft | random
  | loadIndex | addIndex | loadGlyph | storeDecimal | storeRegisters | loadRegisters
  | draw | readDelay | setDelay | setSound | waitKey
deriving DecidableEq, Repr

namespace Routine

def name : Routine → String
  | clearScreen => "op_cls"
  | returnFrom => "op_ret"
  | machineCall => "op_sys"
  | jump => "op_jp"
  | call => "op_call"
  | jumpOffset => "op_jp_v0"
  | skipEqualImmediate => "op_se_imm"
  | skipUnequalImmediate => "op_sne_imm"
  | skipEqual => "op_se_reg"
  | skipUnequal => "op_sne_reg"
  | skipPressed => "op_skp"
  | skipReleased => "op_sknp"
  | loadImmediate => "op_ld_imm"
  | addImmediate => "op_add_imm"
  | copy => "op_ld_reg"
  | or => "op_or"
  | and => "op_and"
  | xor => "op_xor"
  | add => "op_add_reg"
  | subtract => "op_sub"
  | subtractFrom => "op_subn"
  | shiftRight => "op_shr"
  | shiftLeft => "op_shl"
  | random => "op_rnd"
  | loadIndex => "op_ld_i"
  | addIndex => "op_add_i"
  | loadGlyph => "op_ld_font"
  | storeDecimal => "op_ld_bcd"
  | storeRegisters => "op_reg_dump"
  | loadRegisters => "op_reg_load"
  | draw => "op_drw"
  | readDelay => "op_ld_get_delay"
  | setDelay => "op_ld_set_delay"
  | setSound => "op_ld_set_sound"
  | waitKey => "op_wait_key"

def all : List Routine :=
  [clearScreen, returnFrom, machineCall, jump, call, jumpOffset,
    skipEqualImmediate, skipUnequalImmediate, skipEqual, skipUnequal, skipPressed, skipReleased,
    loadImmediate, addImmediate, copy, or, and, xor,
    add, subtract, subtractFrom, shiftRight, shiftLeft, random,
    loadIndex, addIndex, loadGlyph, storeDecimal, storeRegisters, loadRegisters,
    draw, readDelay, setDelay, setSound, waitKey]

def ofName? (s : String) : Option Routine := all.find? (·.name = s)

end Routine

end Chip8
