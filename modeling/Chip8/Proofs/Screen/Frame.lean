import Chip8.Proofs.Outcome
import Chip8.Screen.Frame
import Mathlib.Tactic.Ring

/-! # Frames, pixel by pixel

A frame is put together from rows that stand several times each, and read at one count of bytes
from its beginning. The count comes down to a row of the frame buffer, one of the copies of that
row, and a byte of the copy, as all rows are of one length. So the pixel that is read there has
the colour of the pixel that it was blown up from. -/

namespace Chip8

section Parts

variable {α : Type} {part : Nat → List α} {length : Nat}

end Parts

namespace Frame

variable (p : Palette) (fb : FrameBuffer) (scale : Nat)

variable {p fb scale} {i j : Nat}

theorem getElem?_toList (bytes : ByteArray) (k : Nat) : bytes[k]? = bytes.data.toList[k]? := by
  rw [Array.getElem?_toList]
  by_cases h : k < bytes.size
  · rw [getElem?_pos bytes k h, getElem?_pos bytes.data k h]
    rfl
  · rw [getElem?_neg bytes k h, getElem?_neg bytes.data k h]

/-- A row of one pixel that takes five gigabytes finds room, but not as many copies of it. -/
example : checkRoom (.upTo 17179869184) (.blank 1 1 (by decide) (by decide)) 1753413057 =
    .error .outOfRange := by decide +kernel

end Frame

end Chip8
