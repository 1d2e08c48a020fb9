import Chip8.Proofs.Outcome
import Chip8.Screen.Display

/-! # The picture behind a display

Text that goes to a terminal does not touch the picture, and a window that takes it leaves it
as it is. -/

namespace Chip8.Display

@[simp] theorem screen_write (d : Display) (text : String) : (d.write text).screen = d.screen := by
  unfold write
  split <;> rfl

@[simp] theorem screen_redraw (d : Display) : d.redraw.screen = d.screen := screen_write d _

@[simp] theorem screen_clear (d : Display) : d.clear.screen = d.screen.clear := by
  simp [clear]

@[simp] theorem screen_drawn (d : Display) (screen : FrameBuffer) :
    (d.drawn screen).screen = screen := by
  simp [drawn]

@[simp] theorem screen_drawRows (d : Display) (x y : Int) (rows : List UInt8) :
    (d.drawRows x y rows).2.screen = (d.screen.drawRows x y rows).2 :=
  screen_drawn d _

/-! ## Displays without their surfaces -/

/-- The picture, and how often it was drawn on and cleared. Where it goes is left out, and so
is the flag, which is there for windows. -/
def core (d : Display) : Display := { d with surface := .headless, dirty := false }

theorem core_write (d : Display) (text : String) : (d.write text).core = d.core := by
  unfold write
  split <;> rfl

theorem core_clear (d : Display) : d.clear.core = d.core.clear.core := by
  unfold clear redraw
  rw [core_write, core_write]
  rfl

/-- Displays that are the same but for their surfaces are drawn on alike, and what is drawn hits
the same pixels. -/
theorem core_drawRows {d d' : Display} (h : d.core = d'.core) (x y : Int) (rows : List UInt8) :
    (d.drawRows x y rows).1 = (d'.drawRows x y rows).1 ∧
      (d.drawRows x y rows).2.core = (d'.drawRows x y rows).2.core := by
  simp only [core, Display.mk.injEq] at h
  obtain ⟨hscreen, _, hdraws, hclears, _⟩ := h
  unfold drawRows drawn redraw
  rw [hscreen]
  dsimp only
  rw [core_write, core_write]
  simp only [core, hdraws, hclears, and_self]

/-- Presenting takes the flag and nothing else. -/
theorem core_present (room : Room) (d : Display) (force available : Bool) :
    (leftBy (present room force available) d).core = d.core := by
  unfold leftBy present
  cases d.surface with
  | headless => rfl
  | terminal written => rfl
  | window scale palette =>
    dsimp only [takeDirty]
    by_cases htaken : (!(d.dirty || force)) = true
    · rw [if_pos htaken]
      rfl
    · rw [if_neg htaken]
      cases Frame.render room palette d.screen scale with
      | error e => rfl
      | ok frame => cases available <;> rfl

end Chip8.Display
