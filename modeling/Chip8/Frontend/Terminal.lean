import Chip8.Frontend.Session

/-! The terminal front-end. It prints the picture as text after each change and
sleeps away what is left of each frame's time. -/

namespace Chip8.Terminal

/-- What happens while the front-end sleeps. -/
inductive Pause
  | quiet
  /-- The session is told to stop. -/
  | stop
  /-- The user breaks off. -/
  | interrupt
deriving DecidableEq

structure Host where
  /-- Microseconds that a frame takes. -/
  frameTime : Nat
  /-- What happens during each sleep, counted from one. -/
  pause : Nat → Pause

/-- Something is left of a frame of the given rate. -/
def timeLeft (rate : Int) (frameTime : Nat) : Bool := frameTime * rate < 1000000

/-- The machine once its terminal was cleared. -/
def cleared (m : Machine) : Machine := { m with display := m.display.start }

/-- Sets up the machine and clears the terminal. The session does not run before it
is known how long a frame takes. -/
def start (file : RomFile) : Session.Action Unit := do
  Session.createMachine file (.terminal .standard)
  Session.mapMachine cleared
  modify fun s => { s with
    printed := s.printed.push (.screen (Display.clearScreenCode ++ Display.cursorHomeCode)) }
  let _ ← Session.frameInterval
  Session.setRunning true

/-- One frame and the sleep after it, if time is left; tells what happened. -/
def round (host : Host) : Session.Action Pause := do
  let _ ← Session.runFrame
  let s ← get
  if timeLeft s.settings.timerRate host.frameTime then
    modify fun s => { s with sleeps := s.sleeps + 1 }
    let p := host.pause (s.sleeps + 1)
    if p ≠ .quiet then Session.setRunning false
    return p
  else return .quiet

/-- Frame after frame, after the `frames` already run, until the session stops or `limit` of
them have been run; answers how many have been run in all. -/
def play (host : Host) (limit : Int) (frames : Nat) : Session.Action Nat := do
  if (← get).running then
    if limit ≤ frames then return frames
    else if (← round host) = .interrupt then return frames + 1
    else play host limit (frames + 1)
  else return frames
termination_by (limit - frames).toNat

/-- No frame is run if the limit is negative. -/
def run (file : RomFile) (host : Host) (limit : Int) : Session.Action Nat := do
  start file
  play host limit 0

end Chip8.Terminal
