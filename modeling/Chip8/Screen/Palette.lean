import Chip8.Word

/-! Palettes: the colours of unlit and lit pixels. -/

namespace Chip8

structure Colour where
  red : UInt8
  green : UInt8
  blue : UInt8
deriving DecidableEq, Repr

structure Palette where
  background : Colour
  foreground : Colour
deriving DecidableEq, Repr

inductive PaletteError
  | wrongCount
  | wrongChannels
deriving DecidableEq

def PaletteError.message : PaletteError → String
  | wrongCount => "palette must contain exactly two colours (background and foreground)"
  | wrongChannels => "palette entries must be RGB tuples"

namespace Colour

def channels (c : Colour) : List UInt8 := [c.red, c.green, c.blue]

def channel (c : Colour) (k : Nat) : UInt8 :=
  if k = 0 then c.red else if k = 1 then c.green else c.blue

/-- Channels count modulo 256. -/
def ofChannels : List Int → Except PaletteError Colour
  | [r, g, b] => .ok ⟨byteOf r, byteOf g, byteOf b⟩
  | _ => .error .wrongChannels

end Colour

namespace Palette

def monochrome : Palette := ⟨⟨0, 0, 0⟩, ⟨255, 255, 255⟩⟩

def phosphor : Palette := ⟨⟨0x0f, 0x0f, 0x19⟩, ⟨0x00, 0xff, 0x80⟩⟩

def ofColours : List (List Int) → Except PaletteError Palette
  | [a, b] => return ⟨← Colour.ofChannels a, ← Colour.ofChannels b⟩
  | _ => .error .wrongCount

def toColours (p : Palette) : List (List Int) :=
  [p.background, p.foreground].map fun c => c.channels.map fun k => (k.toNat : Int)

end Palette

end Chip8
