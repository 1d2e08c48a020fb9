import Chip8.Machine.Cycle
import Chip8.Trace

/-! Pacing. A pacer runs a machine in frames: a fixed number of cycles and then
one tick of the timers. It may keep a trace and let a watcher look at each step;
neither bears on the machine. Lines and terminal text come out in the order in
which they were printed. -/

namespace Chip8

/-- Something that was printed. -/
inductive Emission
  | line (text : String)
  | screen (text : String)
deriving DecidableEq

inductive RateError
  | cycles
  | timer
deriving DecidableEq

def RateError.message : RateError → String
  | .cycles => "cycles_per_second must be positive"
  | .timer => "timer_hz must be positive"

/-- A step that was carried out, with the program counter behind it. -/
structure StepNote where
  pattern : Pattern
  pc : Int
deriving DecidableEq

abbrev Notes := Array StepNote

/-- Looks at the machine behind each step that was carried out, and at the instruction,
and keeps of them what it likes. -/
structure Watcher (σ : Type) where
  look : Machine → Instruction → σ → σ
  kept : σ

namespace Watcher

variable {σ : Type}

def tell (w : Watcher σ) (m : Machine) (i : Instruction) : Watcher σ :=
  { w with kept := w.look m i w.kept }

/-- Keeps a note of each step. -/
def notes : Watcher Notes where
  look m i ns := ns.push ⟨i.pattern, m.cpu.pc⟩
  kept := #[]

end Watcher

structure Pacer (σ : Type := Notes) where
  machine : Machine
  cyclesPerSecond : Int
  timerRate : Int
  cycles_pos : 0 < cyclesPerSecond
  timer_pos : 0 < timerRate
  trace : Option Trace
  debug : Debug.Categories
  frames : Nat := 0
  watcher : Option (Watcher σ)
  printed : Array Emission := #[]

namespace Pacer

abbrev Action := EStateM Fault Pacer

variable {σ : Type}

def defaultCyclesPerSecond : Int := 600

def defaultTimerRate : Int := 60

/-- A pacer under watch. -/
def watched (machine : Machine) (cyclesPerSecond timerRate : Int) (trace : Option Trace)
    (debug : Debug.Categories) (watcher : Option (Watcher σ)) : Except RateError (Pacer σ) :=
  if hc : 0 < cyclesPerSecond then
    if ht : 0 < timerRate then
      .ok { machine, cyclesPerSecond, timerRate, cycles_pos := hc, timer_pos := ht, trace, debug,
            watcher }
    else .error .timer
  else .error .cycles

def create (machine : Machine) (cyclesPerSecond timerRate : Int) (trace : Option Trace)
    (debug : Debug.Categories) (noting : Bool) : Except RateError Pacer :=
  watched machine cyclesPerSecond timerRate trace debug (if noting then some .notes else none)

/-- Steps carried out, if they are noted. -/
def notes (p : Pacer) : Option Notes := p.watcher.map (·.kept)

/-- At least one cycle even when the timers outrun the processor. -/
def cyclesPerFrame (p : Pacer σ) : Nat := (max 1 (p.cyclesPerSecond / p.timerRate)).toNat

/-- Seconds from one frame to the next, if the rate is within the reach of floating
point numbers. -/
def frameInterval (p : Pacer σ) : Except LimitError Float :=
  if Limit.float ≤ p.timerRate then .error .outOfRange
  else .ok (1.0 / Float.ofInt p.timerRate)

/-- Text that a terminal got since it had written `seen` pieces. -/
def screenSince (seen : Nat) (m : Machine) : List Emission :=
  (m.display.written.extract seen m.display.written.size).toList.map .screen

def observe (p : Pacer σ) (before : Machine) (mnemonic note : String) : Pacer σ :=
  let word := before.bus.load16 before.cpu.pc
  let opcode := match word with
    | .ok w => some (w : Int)
    | .error _ => none
  { p with trace := p.trace.map fun t =>
      t.record (.ofState before.cpu opcode before.stack.depth mnemonic note) }

/-- One cycle, observed. A fault is traced by its name, a success by its
mnemonic; only a success is shown to the watcher. -/
def step : EStateM Fault (Pacer σ) Instruction := fun p =>
  let before := p.machine
  let print (m : Machine) := p.printed
    ++ (before.cycleLog p.debug).map Emission.line ++ screenSince before.display.written.size m
  match Machine.cycle before with
  | .ok i m =>
    let p := { p with machine := m, printed := print m }.observe before i.mnemonic ""
    .ok i { p with watcher := p.watcher.map (·.tell m i) }
  | .error f m =>
    .error f ({ p with machine := m, printed := print m }.observe before "" f.name)

def steps : Nat → EStateM Fault (Pacer σ) Unit
  | 0 => pure ()
  | n + 1 => do
    let _ ← step
    steps n

/-- The cycles of one frame and a tick; answers how many cycles that were. -/
def frame : EStateM Fault (Pacer σ) Nat := do
  let n := (← get).cyclesPerFrame
  steps n
  modify fun p => { p with machine := p.machine.tick, frames := p.frames + 1 }
  return n

def runFrames : Nat → EStateM Fault (Pacer σ) Nat
  | 0 => pure 0
  | n + 1 => do
    let first ← frame
    return first + (← runFrames n)

/-- As many frames as are asked for, none if the number is negative. -/
def runCount (count : Int) : EStateM Fault (Pacer σ) Nat := runFrames count.toNat

end Pacer

end Chip8
