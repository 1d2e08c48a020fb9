import Chip8.Instruction.Pattern
import Chip8.Instruction.Template

/-! An instruction: the words it matches, its name, the routine that carries it
out, and how a listing writes it. -/

namespace Chip8

structure Instruction where
  pattern : Pattern
  mnemonic : String
  /-- The name of the routine; a machine may have none of that name. -/
  routine : String
  template : Template

namespace Instruction

def ofText (pattern mnemonic routine template : String) : Except PatternError Instruction :=
  return ⟨← Pattern.parse pattern, mnemonic, routine, Template.parse template⟩

def accepts (i : Instruction) (word : Int) : Bool := i.pattern.accepts word

def specificity (i : Instruction) : Nat := i.pattern.specificity

/-- The listing text of a word. -/
def write (host : Template.Host) (i : Instruction) (word : Int) : Except TemplateError String :=
  i.template.fill host (Operands.ofWord word)

end Instruction

end Chip8
