import Chip8.Limit
import Chip8.Text.Numeral
import Chip8.Word

/-! The picture: a grid of pixels, row by row. A sprite is drawn by flipping one
pixel for each of its set bits, wrapping around both edges; it collides when a
flip puts a lit pixel out. -/

namespace Chip8

structure FrameBuffer where
  width : Nat
  height : Nat
  pixels : Array Bool
  width_pos : 0 < width
  height_pos : 0 < height
  size_pixels : pixels.size = width * height

inductive ScreenError
  | badDimensions
  | negativeHeight
  | missingRows (rows : Nat) (expected : Int)
  | outside (x y : Int) (width height : Nat)
  | limit (e : LimitError)
deriving DecidableEq

def ScreenError.message : ScreenError → String
  | badDimensions => "frame buffer dimensions must be positive"
  | negativeHeight => "sprite height must not be negative"
  | missingRows rows expected =>
    "sprite has " ++ Text.decimal rows ++ " rows, expected " ++ Text.decimal expected
  | outside x y w h =>
    "pixel (" ++ Text.decimal x ++ ", " ++ Text.decimal y ++ ") outside " ++ Text.decimal w
      ++ "x" ++ Text.decimal h ++ " buffer"
  | limit _ => ""

namespace Sprite

/-- The columns whose bit is set, bit seven being column zero. -/
def columns (row : UInt8) : List Nat :=
  (List.range 8).filter fun c => row.toNat.testBit (7 - c)

/-- Where a point of the plane falls on a grid that wraps around. -/
def cell (width height : Nat) (x y : Int) : Nat :=
  (y % height).toNat * width + (x % width).toNat

/-- The cells that a sprite flips, in drawing order. A cell may come more than
once when the sprite is wider or taller than the grid. -/
def cells (width height : Nat) (x y : Int) : List UInt8 → List Nat
  | [] => []
  | row :: rows =>
    (columns row).map (fun c : Nat => cell width height (x + c) y)
      ++ cells width height x (y + 1) rows

end Sprite

namespace FrameBuffer

def blank (width height : Nat) (hw : 0 < width) (hh : 0 < height) : FrameBuffer :=
  ⟨width, height, Array.replicate (width * height) false, hw, hh, by simp⟩

/-- The picture of the machine: 64 by 32. -/
def standard : FrameBuffer := blank 64 32 (by decide) (by decide)

def ofSize (width height : Int) (room : Room := .unlimited) : Except ScreenError FrameBuffer :=
  if h : 0 < width ∧ 0 < height then
    match room.check (width.toNat * height.toNat) with
    | .ok () => .ok (blank width.toNat height.toNat (Int.pos_iff_toNat_pos.mp h.1)
        (Int.pos_iff_toNat_pos.mp h.2))
    | .error e => .error (.limit e)
  else .error .badDimensions

def clear (fb : FrameBuffer) : FrameBuffer :=
  blank fb.width fb.height fb.width_pos fb.height_pos

/-- Flips cells one after another and tells whether a lit one went out. -/
def flip : List Nat → Array Bool → Bool → Array Bool × Bool
  | [], px, hit => (px, hit)
  | c :: cs, px, hit =>
    let hit := hit || px.getD c false
    flip cs (px.modify c not) hit

theorem size_flip (cs : List Nat) (px : Array Bool) (hit : Bool) :
    (flip cs px hit).1.size = px.size := by
  induction cs generalizing px hit with
  | nil => rfl
  | cons c cs ih => simp [flip, ih]

/-- Draws all the rows given. -/
def drawRows (fb : FrameBuffer) (x y : Int) (rows : List UInt8) : Bool × FrameBuffer :=
  let cs := Sprite.cells fb.width fb.height x y rows
  ((flip cs fb.pixels false).2,
    { fb with pixels := (flip cs fb.pixels false).1,
              size_pixels := by rw [size_flip, fb.size_pixels] })

/-- Draws the first `height` rows; of each only the low eight bits count. -/
def draw (fb : FrameBuffer) (x y height : Int) (sprite : List Int) :
    Except ScreenError (Bool × FrameBuffer) :=
  if height < 0 then .error .negativeHeight
  else if sprite.length < height then .error (.missingRows sprite.length height)
  else .ok (fb.drawRows x y ((sprite.take height.toNat).map byteOf))

def lit (fb : FrameBuffer) (x y : Nat) : Bool := fb.pixels.getD (y * fb.width + x) false

def pixel (fb : FrameBuffer) (x y : Int) : Except ScreenError Bool :=
  if 0 ≤ x ∧ x < fb.width ∧ 0 ≤ y ∧ y < fb.height then .ok (fb.lit x.toNat y.toNat)
  else .error (.outside x y fb.width fb.height)

def row (fb : FrameBuffer) (y : Nat) : List Bool := (List.range fb.width).map (fb.lit · y)

def rows (fb : FrameBuffer) : List (List Bool) := (List.range fb.height).map fb.row

def litCount (fb : FrameBuffer) : Nat := fb.pixels.count true

/-- One line per row: `#` for a lit pixel and a blank for any other. -/
def lines (fb : FrameBuffer) : List String :=
  fb.rows.map fun r => String.ofList (r.map fun on => if on then '#' else ' ')

def text (fb : FrameBuffer) : String := "\n".intercalate fb.lines

end FrameBuffer

end Chip8
