import Chip8.Instruction.Standard

/-! Listings: one line for each instruction word of an image, with its number,
its address and its text. An image with a byte left over has no listing. -/

namespace Chip8

inductive ListingError
  | oddLength (size : Nat)
  | template (e : TemplateError)
deriving DecidableEq

namespace Listing

open Text

def wordText (host : Template.Host) (table : InstructionTable) (word : Int) :
    Except TemplateError String :=
  match table.lookup word with
  | none => .ok ("UNKNOWN INSTRUCTION " ++ upperHex 4 word)
  | some i => i.write host word

def line (host : Template.Host) (table : InstructionTable) (index : Nat) (address : Int)
    (word : Nat) : Except TemplateError String :=
  return paddedDecimal 2 index ++ ") " ++ upperHex 4 address ++ "\t" ++ (← wordText host table word)

/-- The lines from the given number and address on. -/
def linesFrom (host : Template.Host) (table : InstructionTable) (index : Nat) (address : Int) :
    List UInt8 → Except TemplateError (List String)
  | high :: low :: rest => do
    let first ← line host table index address (wordFrom high low)
    return first :: (← linesFrom host table (index + 1) (address + 2) rest)
  | _ => .ok []

def lines (host : Template.Host) (table : InstructionTable) (data : List UInt8) (start : Int) :
    Except ListingError (List String) :=
  if data.length % 2 = 1 then .error (.oddLength data.length)
  else (linesFrom host table 1 start data).mapError .template

/-- Each line ends with a line feed; no words, no text. -/
def text (host : Template.Host) (data : List UInt8) (start : Int) :
    Except ListingError String := do
  return String.join ((← lines host .standard data start).map (· ++ "\n"))

end Listing

def ListingError.message : ListingError → String
  | .oddLength size =>
    "image has an odd length (" ++ Text.decimal size
      ++ " bytes); trailing byte is not an instruction"
  | .template _ => ""

end Chip8
