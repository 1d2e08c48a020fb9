import Chip8.Word
import Chip8.Text.Quoted

/-! Instruction patterns such as `8XY4`: four nibbles, each a fixed digit or an
operand. A word matches when its fixed nibbles agree, which one masked
comparison decides. -/

namespace Chip8

inductive PatternNibble
  | digit (d : Nibble)
  | x
  | y
  | n
deriving DecidableEq, Repr

instance (k : Nat) : OfNat PatternNibble k := ⟨.digit (Fin.ofNat 16 k)⟩

namespace PatternNibble

def ofChar? (c : Char) : Option PatternNibble :=
  if '0' ≤ c ∧ c ≤ '9' then some (.digit (Fin.ofNat 16 (c.toNat - 48)))
  else if 'A' ≤ c ∧ c ≤ 'F' then some (.digit (Fin.ofNat 16 (c.toNat - 55)))
  else if c = 'X' then some .x
  else if c = 'Y' then some .y
  else if c = 'N' then some .n
  else none

def toChar : PatternNibble → Char
  | digit d => (Nat.digitChar d.val).toUpper
  | x => 'X'
  | y => 'Y'
  | n => 'N'

def isFixed : PatternNibble → Bool
  | digit _ => true
  | _ => false

def mask : PatternNibble → Nat
  | digit _ => 15
  | _ => 0

def value : PatternNibble → Nat
  | digit d => d.val
  | _ => 0

end PatternNibble

structure Pattern where
  first : PatternNibble
  second : PatternNibble
  third : PatternNibble
  fourth : PatternNibble
deriving DecidableEq, Repr

inductive PatternError
  | length (text : String)
  | character (c : Char) (text : String)
deriving DecidableEq

def PatternError.message : PatternError → String
  | length text => "pattern must have four nibbles: " ++ Text.quoted text
  | character c text =>
    "invalid pattern character " ++ Text.quoted (String.singleton c) ++ " in " ++ Text.quoted text

namespace Pattern

def toList (p : Pattern) : List PatternNibble := [p.first, p.second, p.third, p.fourth]

def toText (p : Pattern) : String := String.ofList (p.toList.map PatternNibble.toChar)

/-- The length is judged before any character, the characters from the left. -/
def parse (text : String) : Except PatternError Pattern := do
  let nibble (c : Char) : Except PatternError PatternNibble :=
    match PatternNibble.ofChar? c with
    | some d => .ok d
    | none => .error (.character c text)
  match text.toList with
  | [a, b, c, d] => return ⟨← nibble a, ← nibble b, ← nibble c, ← nibble d⟩
  | _ => .error (.length text)

/-- Ones where the pattern fixes the word. -/
def mask (p : Pattern) : Nat := p.toList.foldl (fun acc d => acc * 16 + d.mask) 0

/-- The fixed digits, with zero for each operand. -/
def value (p : Pattern) : Nat := p.toList.foldl (fun acc d => acc * 16 + d.value) 0

def leading (p : Pattern) : Nibble := nibbleOf (p.value / 4096)

/-- How many nibbles are fixed. -/
def specificity (p : Pattern) : Nat := p.toList.countP PatternNibble.isFixed

def accepts (p : Pattern) (word : Int) : Bool :=
  (word % 65536).toNat &&& p.mask == p.value

end Pattern

end Chip8
