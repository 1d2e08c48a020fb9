import Chip8.Screen.FrameBuffer
import Chip8.Screen.Palette

/-! Frames: pictures in colour, three bytes a pixel, each pixel of the frame
buffer blown up to a square. -/

namespace Chip8

structure Frame where
  width : Nat
  height : Nat
  bytes : ByteArray

/-- A picture is not scaled down to nothing, nor beyond all bounds. -/
inductive ScaleError
  | notPositive
  | limit (e : LimitError)
deriving DecidableEq

def ScaleError.message : ScaleError → String
  | .notPositive => "scale must be positive"
  | .limit _ => ""

namespace Frame

def shade (p : Palette) (fb : FrameBuffer) (x y : Nat) : Colour :=
  if fb.lit x y then p.foreground else p.background

/-- The bytes that a function has for the numbers below `n`. -/
def tabulate (n : Nat) (f : Nat → UInt8) : ByteArray :=
  n.fold (fun i _ bytes => bytes.push (f i)) .empty

/-- The parts that a function has for the numbers below `n`, one behind the other. -/
def concat (n : Nat) (part : Nat → ByteArray) : ByteArray :=
  n.fold (fun i _ bytes => bytes ++ part i) .empty

/-- A row of the frame buffer as a row of the frame. -/
def paintRow (p : Palette) (fb : FrameBuffer) (scale y : Nat) : ByteArray :=
  tabulate (fb.width * scale * 3) fun i => (shade p fb (i / 3 / scale) y).channel (i % 3)

/-- Each row of the frame buffer is painted once and stands `scale` times. -/
def paint (p : Palette) (fb : FrameBuffer) (scale : Nat) : Frame :=
  { width := fb.width * scale, height := fb.height * scale,
    bytes := concat fb.height fun y =>
      let row := paintRow p fb scale y
      concat scale fun _ => row }

/-- How many bytes a row of the frame takes. -/
def rowCount (fb : FrameBuffer) (scale : Nat) : Nat := 3 * (fb.width * scale)

/-- How many bytes the frame takes. -/
def byteCount (fb : FrameBuffer) (scale : Nat) : Nat := rowCount fb scale * (fb.height * scale)

/-- The bytes of a pixel are repeated, the runs of a row are joined to it, and the row is repeated
before the frame grows by it. What is repeated is counted before there is room for it. -/
def checkRoom (room : Room) (fb : FrameBuffer) (scale : Nat) : Except LimitError Unit := do
  room.check (3 * scale)
  room.checkJoined (rowCount fb scale)
  room.check (rowCount fb scale * scale)
  room.checkGrown (byteCount fb scale)

def render (room : Room) (p : Palette) (fb : FrameBuffer) (scale : Int) :
    Except ScaleError Frame :=
  if 0 < scale then
    match checkRoom room fb scale.toNat with
    | .ok () => .ok (paint p fb scale.toNat)
    | .error e => .error (.limit e)
  else .error .notPositive

/-- Pixels are counted in reading order, so a column past the edge runs on into
the next row; a negative count goes back from the last pixel. -/
def pixel? (f : Frame) (x y : Int) : Option Colour :=
  let k := (y * f.width + x) * 3
  let k := if k < 0 then k + f.bytes.size else k
  if k < 0 then none
  else do
    let r ← f.bytes[k.toNat]?
    let g ← f.bytes[k.toNat + 1]?
    let b ← f.bytes[k.toNat + 2]?
    return ⟨r, g, b⟩

end Frame

end Chip8
