import Chip8.CommandLine.Options
import Chip8.Frontend.Terminal
import Chip8.Frontend.Window
import Chip8.Listing
import Chip8.Text.Lines

/-! The command: options are judged, then a program is listed or run. The exit
code is two for wrong usage and one for a run that failed. -/

namespace Chip8.CommandLine

def programName : String := "run.py"

/-- What there is besides the arguments. -/
structure Host where
  file : RomPath → RomFile
  debug : Debug.Categories
  terminal : Terminal.Host
  /-- Frames after which a run in the terminal is left. -/
  rounds : Nat
  window : Window.Host
  template : Template.Host := {}
  events : List (List Window.Event)

structure Outcome where
  /-- The exit code, unless the command broke off. -/
  code : Except SessionError Nat := .ok 0
  printed : Array Emission := #[]
  /-- Text for the error stream; a line feed goes behind it. -/
  complaint : String := ""
  calls : Array WindowCall := #[]

namespace Outcome

def usage (e : UsageError) : Outcome :=
  { code := .ok 2, complaint := programName ++ ": error: " ++ e.message }

def failure (message : String) : Outcome :=
  { code := .ok 1, complaint := programName ++ ": " ++ message }

/-- A command complains of what it met while running; any other error breaks it off. -/
def ofError (e : SessionError) : Outcome :=
  if e.isRuntime then failure e.message else { code := .error e }

/-- The last line of the error stream. -/
def errorLine (o : Outcome) : String := Text.lastLine o.complaint

end Outcome

def usageText : String :=
  "usage: " ++ programName ++ " [-h] [--mode MODE] [--scale SCALE] [--palette PALETTE]\n"
    ++ "       [--cycles-per-second N] [--load-store-quirk] [--disassemble] rom\n"

/-- The program file has to exist and the numbers have to be positive. -/
def check (file : RomPath → RomFile) (r : Options) : Except Halt (RomPath × RomFile) := do
  let some path := r.rom | throw (.usage .romRequired)
  let found := file path
  if found = .badName then throw (.failed .romBadName)
  if found = .missing then throw (.usage (.romNotFound path))
  if (← (Options.required r.scale).mapError .failed) ≤ 0 then throw (.usage .badScale)
  if (← (Options.required r.cyclesPerSecond).mapError .failed) ≤ 0 then
    throw (.usage .badCycles)
  return (path, found)

def list (host : Template.Host) (data : List UInt8) : Outcome :=
  match Listing.text host data 0 with
  | .ok text => { printed := #[.screen text] }
  | .error e => .failure e.message

def play (host : Host) (mode : Mode) (settings : Settings) (file : RomFile) : Outcome :=
  let session : Session := { settings, debug := host.debug }
  let act : Session.Action Unit := match mode with
    | .terminal => do
      let _ ← Terminal.run file host.terminal host.rounds
    | .window => Window.run file host.window host.events
  match act session with
  | .ok () s => { printed := s.printed, calls := s.calls }
  | .error e s => { Outcome.ofError e with printed := s.printed, calls := s.calls }

def attempt (host : Host) (arguments : List String) : Except Halt Outcome := do
  let r ← Options.parse arguments
  let (path, file) ← check host.file r
  if r.disassemble then return list host.template (← (Session.read path file).mapError .failed)
  else return play host r.mode (← r.settings.mapError .failed) file

def run (host : Host) (arguments : List String) : Outcome :=
  match attempt host arguments with
  | .ok o => o
  | .error .help => { printed := #[.screen usageText] }
  | .error (.usage e) => .usage e
  | .error (.failed e) => .ofError e

end Chip8.CommandLine
