import Chip8.Frontend.RomFile
import Chip8.Machine.Create
import Chip8.Machine.Summary
import Chip8.Pacer

/-! Sessions: a machine set up from a program file, run frame by frame. A fault
ends the session's run with a report in the debug lines: the fault, the state of
the processor and the last steps of the trace. -/

namespace Chip8

structure Settings where
  rom : Option RomPath := none
  scale : Int := 10
  advances : Bool := false
  cyclesPerSecond : Int := Pacer.defaultCyclesPerSecond
  timerRate : Int := Pacer.defaultTimerRate
  /-- Colours as they were asked for; a window judges them. -/
  colours : List (List Int) := Palette.monochrome.toColours

/-- What a machine is switched on with. -/
def Settings.options (c : Settings) (path : RomPath) (data : List UInt8) (display : Display) :
    Machine.Options :=
  { advances := c.advances, rom := some data, romName := path.name, display }

inductive SessionError
  | romRequired
  | romNotFound (path : RomPath)
  | romBadName
  | romIsDirectory
  | loadFailed (path : RomPath) (e : LoadError)
  | notInitialised
  | stopped (f : Fault)
  | noWindowSystem
  | rate (e : RateError)
  | palette (e : PaletteError)
  | present (e : PresentError)
  | limit (e : LimitError)
  /-- A setting was given without a value. -/
  | noValue
deriving DecidableEq

namespace SessionError

def message : SessionError → String
  | romRequired => "ROM image is required; pass the ROM path"
  | romNotFound path => "ROM file not found: " ++ path.text
  | romBadName | romIsDirectory => ""
  | loadFailed path e => "Failed to load ROM " ++ path.text ++ ": " ++ e.message
  | notInitialised => "machine not initialised"
  | stopped f => "Emulation stopped: " ++ f.message
  | noWindowSystem => "pygame is required to run the UI"
  | rate e => e.message
  | palette e => e.message
  | present e => e.message
  | limit _ | noValue => ""

/-- Met while running, as opposed to settings that make no sense and to what the
host refuses. -/
def isRuntime : SessionError → Bool
  | romBadName | romIsDirectory | rate _ | palette _ | present (.scale _) | limit _
  | noValue => false
  | _ => true

end SessionError

/-- Calls to the window system. -/
inductive WindowCall
  | init
  | caption (text : String)
  | mode (width height : Int)
  /-- Copies a frame to the top left corner. -/
  | blit (frame : Frame)
  | flip
  | tick (rate : Int)
  | quit

/-- How far a session has come. -/
inductive Stage
  | idle
  /-- There is a machine but nothing to pace it. -/
  | assembled (m : Machine)
  | ready (p : Pacer)

structure Session where
  settings : Settings
  debug : Debug.Categories
  running : Bool := false
  stage : Stage := .idle
  /-- Sleeps between frames so far. -/
  sleeps : Nat := 0
  printed : Array Emission := #[]
  calls : Array WindowCall := #[]

namespace Session

abbrev Action := EStateM SessionError Session

/-- How many of them a fault report shows. -/
def reportLength : Int := 32

def machine? (s : Session) : Option Machine :=
  match s.stage with
  | .idle => none
  | .assembled m => some m
  | .ready p => some p.machine

/-- A trace is kept only if something may print it. -/
def trace? (c : Debug.Categories) : Option Trace :=
  if c.enabled (some "trace") || c.enabled (some "fault") then some .standard
  else none

def setRunning (running : Bool) : Action Unit := modify fun s => { s with running }

def printLines (ls : List String) : Action Unit :=
  modify fun s => { s with printed := s.printed ++ ls.map Emission.line }

def call (c : WindowCall) : Action Unit := modify fun s => { s with calls := s.calls.push c }

/-- Moves what the pacer printed to the session. -/
def keep (s : Session) (p : Pacer) : Session :=
  { s with printed := s.printed ++ p.printed, stage := .ready { p with printed := #[] } }

/-- The content of the file, if it can be read. -/
def read (path : RomPath) : RomFile → Except SessionError (List UInt8)
  | .missing => .error (.romNotFound path)
  | .badName => .error .romBadName
  | .directory => .error .romIsDirectory
  | .data bytes => .ok bytes

/-- Sets up the machine from the program file. -/
def createMachine (file : RomFile) (display : Display) : Action Unit := do
  let s ← get
  let some path := s.settings.rom | throw .romRequired
  let data ← ofExcept (read path file)
  match Machine.create (s.settings.options path data display) with
  | .error e => throw (.loadFailed path e)
  | .ok m =>
    printLines (m.createLog s.debug)
    modify fun s => { s with stage := .assembled m }
    match Pacer.create m s.settings.cyclesPerSecond s.settings.timerRate (trace? s.debug) s.debug
        false with
    | .error e => throw (.rate e)
    | .ok p => modify fun s => { s with stage := .ready p }

/-- What a fault prints. -/
def report (c : Debug.Categories) (p : Pacer) (f : Fault) : List String :=
  c.log "fault" (f.name ++ ": " ++ f.message)
    ++ p.machine.summary.flatMap (c.log "fault")
    ++ match p.trace with
      | some t => t.dump c "fault" (some reportLength)
      | none => []

/-- One frame; answers how many cycles it took. -/
def runFrame : Action Nat := fun s =>
  match s.stage with
  | .ready p => match Pacer.frame p with
    | .ok n p => .ok n (s.keep p)
    | .error f p =>
      let s := { s.keep p with running := false }
      .error (.stopped f) { s with
        printed := s.printed ++ (report s.debug p f).map Emission.line }
  | _ => .error .notInitialised s

/-- Seconds that a frame takes. -/
def frameInterval : Action Float := fun s =>
  match s.stage with
  | .ready p => match p.frameInterval with
    | .ok seconds => .ok seconds s
    | .error e => .error (.limit e) s
  | _ => .error .notInitialised s

/-- Changes the machine of a session that is ready. -/
def mapMachine (f : Machine → Machine) : Action Unit := modify fun s =>
  match s.stage with
  | .ready p => { s with stage := .ready { p with machine := f p.machine } }
  | _ => s

end Session

end Chip8
