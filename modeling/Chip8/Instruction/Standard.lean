import Chip8.Instruction.Table
import Chip8.Machine.Routine

/-! The standard instruction set: thirty-five patterns and how a listing writes
them. -/

namespace Chip8

namespace Standard

private def t (s : String) : Piece := .text s.toList

private def vx : Template := [t "V", .hole .x { base := 16, upper := true }]

private def vy : Template := [t "V", .hole .y { base := 16, upper := true }]

private def n1 : Piece := .hole .n { base := 16, upper := true }

private def n2 : Piece := .hole .nn { base := 16, upper := true, width := 2 }

private def n3 : Piece := .hole .nnn { base := 16, upper := true, width := 3 }

private def skipIf (test : Template) : Template := t "if(" :: test ++ [t ") skip_next;"]

private def row (pattern : Pattern) (mnemonic : String) (r : Routine) (template : Template) :
    Instruction :=
  ⟨pattern, mnemonic, r.name, template⟩

def instructions : List Instruction := [
  row ⟨0, 0, 0xE, 0⟩ "CLS" .clearScreen [t "disp_clear"],
  row ⟨0, 0, 0xE, 0xE⟩ "RET" .returnFrom [t "return;"],
  row ⟨0, .n, .n, .n⟩ "SYS" .machineCall [t "call ", n3],
  row ⟨1, .n, .n, .n⟩ "JP" .jump [t "goto ", n3, t ";"],
  row ⟨2, .n, .n, .n⟩ "CALL" .call [t "call ", n3, t ";"],
  row ⟨3, .x, .n, .n⟩ "SE" .skipEqualImmediate (skipIf (vx ++ [t "==", n2])),
  row ⟨4, .x, .n, .n⟩ "SNE" .skipUnequalImmediate (skipIf (vx ++ [t "!=", n2])),
  row ⟨5, .x, .y, 0⟩ "SE" .skipEqual (skipIf (vx ++ t "==" :: vy)),
  row ⟨6, .x, .n, .n⟩ "LD" .loadImmediate (vx ++ [t "=", n2]),
  row ⟨7, .x, .n, .n⟩ "ADD" .addImmediate (vx ++ [t "+=", n2]),
  row ⟨8, .x, .y, 0⟩ "LD" .copy (vx ++ t "=" :: vy),
  row ⟨8, .x, .y, 1⟩ "OR" .or (vx ++ t "=" :: vx ++ t "|" :: vy),
  row ⟨8, .x, .y, 2⟩ "AND" .and (vx ++ t "=" :: vx ++ t "&" :: vy),
  row ⟨8, .x, .y, 3⟩ "XOR" .xor (vx ++ t "=" :: vx ++ t "^" :: vy),
  row ⟨8, .x, .y, 4⟩ "ADD" .add (vx ++ t "+=" :: vy),
  row ⟨8, .x, .y, 5⟩ "SUB" .subtract (vx ++ t "-=" :: vy),
  row ⟨8, .x, .y, 6⟩ "SHR" .shiftRight (vx ++ [t ">>=1"]),
  row ⟨8, .x, .y, 7⟩ "SUBN" .subtractFrom (vx ++ t "=" :: vy ++ t "-" :: vx),
  row ⟨8, .x, .y, 0xE⟩ "SHL" .shiftLeft (vx ++ [t "<<=1"]),
  row ⟨9, .x, .y, 0⟩ "SNE" .skipUnequal (skipIf (vx ++ t "!=" :: vy)),
  row ⟨0xA, .n, .n, .n⟩ "LD" .loadIndex [t "I=0x", n3],
  row ⟨0xB, .n, .n, .n⟩ "JP" .jumpOffset [t "PC=V0+0x", n3],
  row ⟨0xC, .x, .n, .n⟩ "RND" .random (vx ++ [t "=rand() & 0x", n2]),
  row ⟨0xD, .x, .y, .n⟩ "DRW" .draw (t "draw(" :: vx ++ t ", " :: vy ++ [t ", 0x", n1, t ")"]),
  row ⟨0xE, .x, 9, 0xE⟩ "SKP" .skipPressed (t "if(key()==" :: vx ++ [t ")"]),
  row ⟨0xE, .x, 0xA, 1⟩ "SKNP" .skipReleased (t "if(key()!=" :: vx ++ [t ")"]),
  row ⟨0xF, .x, 0, 7⟩ "LD" .readDelay (vx ++ [t "=get_delay()"]),
  row ⟨0xF, .x, 0, 0xA⟩ "LD" .waitKey (vx ++ [t "=get_key()"]),
  row ⟨0xF, .x, 1, 5⟩ "LD" .setDelay (t "delay_timer(" :: vx ++ [t ")"]),
  row ⟨0xF, .x, 1, 8⟩ "LD" .setSound (t "sound_timer(" :: vx ++ [t ")"]),
  row ⟨0xF, .x, 1, 0xE⟩ "ADD" .addIndex (t "I += " :: vx),
  row ⟨0xF, .x, 2, 9⟩ "LD" .loadGlyph (t "I = sprite_addr(" :: vx ++ [t ")"]),
  row ⟨0xF, .x, 3, 3⟩ "LD" .storeDecimal (t "set_BCD(" :: vx ++ [t ")"]),
  row ⟨0xF, .x, 5, 5⟩ "LD" .storeRegisters (t "reg_dump(" :: vx ++ [t ", &I)"]),
  row ⟨0xF, .x, 6, 5⟩ "LD" .loadRegisters (t "reg_load(" :: vx ++ [t ", &I)"])]

end Standard

/-- The table that machines decode with unless they are given another. -/
def InstructionTable.standard : InstructionTable := Standard.instructions.foldl insert {}

end Chip8
