import Chip8.Screen.Frame

/-! Displays: a frame buffer and the place where its picture goes. A terminal gets
the text of the picture after each change, a window gets a frame when it asks for
one, and a headless display keeps the picture to itself. -/

namespace Chip8

/-- Where the picture goes. -/
inductive Surface
  | headless
  /-- The text written so far, in the order of writing. -/
  | terminal (written : Array String)
  | window (scale : Int) (palette : Palette)

structure Display where
  screen : FrameBuffer
  surface : Surface
  drawCount : Nat := 0
  clearCount : Nat := 0
  /-- The picture was drawn on or cleared since the flag was last taken. -/
  dirty : Bool := false

/-- Why a frame could not be shown. -/
inductive PresentError
  | scale (e : ScaleError)
  | noWindowSystem
deriving DecidableEq

def PresentError.message : PresentError → String
  | .scale e => e.message
  | .noWindowSystem => "pygame is required to build surfaces"

namespace Display

def clearScreenCode : String := "\x1b[2J"

def cursorHomeCode : String := "\x1b[H"

def headless (screen : FrameBuffer) : Display := { screen, surface := .headless }

def terminal (screen : FrameBuffer) : Display := { screen, surface := .terminal #[] }

def window (screen : FrameBuffer) (scale : Int) (palette : Palette) : Display :=
  { screen, surface := .window scale palette }

/-- Text goes to a terminal and nowhere else; elsewhere it is not even put together. -/
@[macro_inline] def write (d : Display) (text : String) : Display :=
  match d.surface with
  | .terminal written => { d with surface := .terminal (written.push text) }
  | _ => d

def written (d : Display) : Array String :=
  match d.surface with
  | .terminal written => written
  | _ => #[]

/-- The whole picture over the old one. -/
def redraw (d : Display) : Display := d.write (cursorHomeCode ++ d.screen.text ++ "\n")

def start (d : Display) : Display := d.write (clearScreenCode ++ cursorHomeCode)

def clear (d : Display) : Display :=
  ({ d with screen := d.screen.clear, clearCount := d.clearCount + 1, dirty := true }.write
    clearScreenCode).redraw

/-- Takes over a picture that was drawn on. -/
def drawn (d : Display) (screen : FrameBuffer) : Display :=
  { d with screen, drawCount := d.drawCount + 1, dirty := true }.redraw

def drawRows (d : Display) (x y : Int) (rows : List UInt8) : Bool × Display :=
  let (hit, screen) := d.screen.drawRows x y rows
  (hit, d.drawn screen)

def draw (d : Display) (x y height : Int) (sprite : List Int) :
    Except ScreenError (Bool × Display) := do
  let (hit, screen) ← d.screen.draw x y height sprite
  return (hit, d.drawn screen)

def takeDirty (d : Display) : Bool × Display := (d.dirty, { d with dirty := false })

/-- The frame to show, if the picture changed or one is asked for in any case.
The flag is taken first, so it stays taken when the frame cannot be shown. -/
def present (room : Room) (force available : Bool) :
    EStateM PresentError Display (Option Frame) := fun d =>
  match d.surface with
  | .window scale palette =>
    let (dirty, d) := d.takeDirty
    if !(dirty || force) then .ok none d
    else match Frame.render room palette d.screen scale with
      | .error e => .error (.scale e) d
      | .ok frame => if available then .ok (some frame) d else .error .noWindowSystem d
  | _ => .ok none d

end Display

end Chip8
