import Chip8.Frontend.Session

/-! The window front-end. It reads the keys, runs a frame and shows the picture
if it changed. Calls to the window system are recorded in order. -/

namespace Chip8.Window

inductive Event
  | quit
  | keyDown (key : String)
  | keyUp (key : String)
  | other
deriving DecidableEq

structure Host where
  /-- There is a window system. -/
  available : Bool
  /-- Microseconds that a frame takes. -/
  frameTime : Nat
  room : Room := .unlimited

def escapeKey : String := "escape"

def handleKey (name : String) (pressed : Bool) : Session.Action Unit := do
  let s ← get
  Session.printLines
    (s.debug.log "input" ("event=" ++ name ++ " pressed=" ++ Keypad.truthText pressed)
      ++ Keypad.setNamedLog s.debug name pressed)
  Session.mapMachine fun m => { m with keypad := (m.keypad.setNamed name pressed).2.2 }

def handle : Event → Session.Action Unit
  | .quit => Session.setRunning false
  | .keyDown key =>
    if key = escapeKey then Session.setRunning false else handleKey key true
  | .keyUp key => handleKey key false
  | .other => pure ()

/-- All events that were waiting, also those behind the one that ends the run. -/
def handleAll : List Event → Session.Action Unit
  | [] => pure ()
  | e :: es => do
    handle e
    handleAll es

/-- Copies the frame to the window if there is one to show. -/
def present (host : Host) (force : Bool) : Session.Action Bool := fun s =>
  match s.stage with
  | .ready p => match Display.present host.room force true p.machine.display with
    | .ok frame display =>
      let s := { s with stage := .ready { p with machine := { p.machine with display } } }
      match frame with
      | some f => .ok true { s with calls := s.calls.push (.blit f) }
      | none => .ok false s
    | .error e display =>
      .error (.present e) { s with
        stage := .ready { p with machine := { p.machine with display } } }
  | _ => .ok false s

/-- Milliseconds with three places. -/
def millisecondText (micros : Nat) : String :=
  Text.decimal (micros / 1000 : Nat) ++ "." ++ Text.paddedDecimal 3 (micros % 1000 : Nat)

/-- A frame, its picture, its line in the debug output and the wait for the next. -/
def round (host : Host) : Session.Action Unit := do
  let executed ← Session.runFrame
  if ← present host false then Session.call .flip
  let s ← get
  Session.printLines (s.debug.log "perf"
    ("cycles=" ++ Text.decimal executed ++ " frame_ms=" ++ millisecondText host.frameTime))
  Session.call (.tick s.settings.timerRate)

/-- One round for each list of events; when they run out the window is closed. -/
def play (host : Host) : List (List Event) → Session.Action Unit
  | [] => handle .quit
  | es :: rest => do
    handleAll es
    if (← get).running then
      round host
      play host rest

/-- Runs an action and closes the window whatever comes of it. -/
def closing {α : Type} (act : Session.Action α) : Session.Action α := fun s =>
  match act s with
  | .ok a s => .ok a { s with calls := s.calls.push .quit }
  | .error e s => .error e { s with calls := s.calls.push .quit }

/-- A machine that cannot be set up closes the window, unless the settings or the
host are to blame. -/
def createMachine (file : RomFile) (display : Display) : Session.Action Unit :=
  fun s => match Session.createMachine file display s with
  | .ok () s => .ok () s
  | .error e s => .error e (if e.isRuntime then { s with calls := s.calls.push .quit } else s)

def caption (s : Settings) : String :=
  "CHIP-8 - " ++ (match s.rom with | some path => path.name | none => "CHIP-8")

/-- Opens the window, sets up the machine and shows the first picture. -/
def start (file : RomFile) (host : Host) : Session.Action Unit := do
  if !host.available then throw .noWindowSystem
  let settings := (← get).settings
  Session.call .init
  Session.call (.caption (caption settings))
  Session.call (.mode (64 * settings.scale) (32 * settings.scale))
  match Palette.ofColours settings.colours with
  | .error e => throw (.palette e)
  | .ok palette => createMachine file (.window .standard settings.scale palette)
  Session.setRunning true
  let _ ← present host true
  Session.call .flip

def run (file : RomFile) (host : Host) (events : List (List Event)) : Session.Action Unit := do
  start file host
  closing (play host events)

end Chip8.Window
