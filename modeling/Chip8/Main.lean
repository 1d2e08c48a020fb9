import Chip8.CommandLine.Command

/-! The program. It reads the file and the clock, prints, and sleeps; what is
printed and when to stop is decided elsewhere. There is no window system here. -/

namespace Chip8

def printEmission : Emission → IO Unit
  | .line text => IO.println text
  | .screen text => do
    IO.print text
    (← IO.getStdout).flush

def printAll (es : Array Emission) : IO Unit := es.forM printEmission

def complain (s : String) : IO Unit := if s = "" then pure () else IO.eprintln s

/-- A directory can be opened, and fails when it is read: the error names no file. -/
def readRom (path : RomPath) : IO RomFile := do
  try
    return .data (← IO.FS.readBinFile path.text).toList
  catch
    | .inappropriateType none .. => return .directory
    | .invalidArgument .. => return .badName
    | _ => return .missing

/-- Prints what the session has printed and forgets it. -/
def flushSession (s : Session) : IO Session := do
  printAll s.printed
  return { s with printed := #[] }

/-- Frame after frame until the session stops; answers the error if it fails. -/
partial def runFrames (s : Session) : IO (Option SessionError) := do
  if !s.running then return none
  let started ← IO.monoNanosNow
  match Session.runFrame s with
  | .error e s =>
    let _ ← flushSession s
    return some e
  | .ok _ s =>
    let s ← flushSession s
    let spent := ((← IO.monoNanosNow) - started) / 1000
    let rate := s.settings.timerRate
    if Terminal.timeLeft rate spent then
      IO.sleep ((1000000 / rate - spent).toNat / 1000).toUInt32
    runFrames s

def runTerminal (debug : Debug.Categories) (settings : Settings) (file : RomFile) :
    IO (Option SessionError) := do
  match Terminal.start file { settings, debug } with
  | .error e s =>
    let _ ← flushSession s
    return some e
  | .ok () s => runFrames (← flushSession s)

/-- A command that broke off has the exit code of a failure. -/
def finish (o : CommandLine.Outcome) : IO UInt32 := do
  printAll o.printed
  match o.code with
  | .ok code =>
    if code = 2 then complain CommandLine.usageText.trimAsciiEnd.toString
    complain o.complaint
    return code.toUInt32
  | .error _ =>
    complain (CommandLine.programName ++ ": cannot run the program file")
    return 1

end Chip8

open Chip8 in
def main (arguments : List String) : IO UInt32 := do
  let debug := Debug.Categories.ofSetting (← IO.getEnv "CHIP8_DEBUG")
  let parsed := CommandLine.Options.parse arguments
  let found ← match parsed with
    | .ok { rom := some path, .. } => readRom path
    | _ => pure .missing
  let host : CommandLine.Host :=
    { file := fun _ => found, debug, terminal := ⟨0, fun _ => .quiet⟩, rounds := 0,
      window := { available := false, frameTime := 0 }, events := [] }
  match parsed with
  | .ok r =>
    if r.mode = .terminal && !r.disassemble then
      match CommandLine.check host.file r, r.settings with
      | .ok (_, file), .ok settings => match ← runTerminal debug settings file with
        | none => return 0
        | some e => finish (.ofError e)
      | _, _ => finish (CommandLine.run host arguments)
    else finish (CommandLine.run host arguments)
  | .error _ => finish (CommandLine.run host arguments)
