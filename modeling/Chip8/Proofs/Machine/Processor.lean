import Chip8.Proofs.CallStack.Cells
import Chip8.Proofs.Machine.Routine
import Chip8.Proofs.Machine.Cycle

/-! # A processor with all that it keeps

A machine holds the addresses that are on its stack. The stack itself is a row of cells, in which
a return leaves its address behind, and the processor also keeps the address and the word of the
instruction that it began last. With all of this a cycle does to the machine what it does
without. -/

namespace Chip8

/-- The address and the word of the instruction that was begun last. -/
structure Latch where
  pc : Int := 0x200
  opcode : Nat := 0
deriving DecidableEq

/-- The cells are in the place of the stack of the machine, which is not used. -/
structure Processor where
  machine : Machine
  slots : Slots
  latch : Latch := {}

namespace Processor

abbrev Action := EStateM Fault Processor

/-- The machine, with the stack that the cells show. -/
def shown (p : Processor) : Machine := { p.machine with stack := p.slots.shown }

def onSlots {α : Type} (act : EStateM StackFault Slots α) : Action α := fun p =>
  match act p.slots with
  | .ok a slots => .ok a { p with slots }
  | .error e slots => .error (.stack e) { p with slots }

/-- For what does not touch the stack. -/
def onMachine {α : Type} (act : Machine.Action α) : Action α := fun p =>
  match act p.shown with
  | .ok a machine => .ok a { p with machine }
  | .error f machine => .error f { p with machine }

/-- Carries out the instruction that was begun. -/
def run (r : Routine) : Action Unit := do
  let latch := (← get).latch
  match r with
  | .returnFrom => onMachine (Machine.setPc (← onSlots Slots.pop).toNat)
  | .call => do
    onSlots (Slots.push (← get).machine.cpu.pc)
    onMachine (Machine.setPc (Operands.ofWord latch.opcode).nnn)
  | .waitKey => throw (.unimplemented latch.pc latch.opcode)
  | r => onMachine (r.run latch.pc latch.opcode)

/-- The processor that has begun an instruction. -/
def begun (pc : Int) (word : Nat) (p : Processor) : Processor :=
  { p with
    machine := { p.machine with cpu := { p.machine.cpu with pc := (pc + 2) % 65536 } }
    latch := ⟨pc, word⟩ }

def runAt (pc : Int) (word : Nat) (r : Routine) : Action Unit := fun p =>
  match run r (p.begun pc word) with
  | .ok () p => .ok () { p with machine := { p.machine with cycles := p.machine.cycles + 1 } }
  | .error e p => .error e { p with machine := { p.machine with cpu := { p.machine.cpu with pc } } }

def cycle : Action Instruction := do
  let pc := (← get).machine.cpu.pc
  let (word, i) ← onMachine Machine.fetch
  match Routine.ofName? i.routine with
  | none => throw (.noRoutine i.routine)
  | some r => do
    runAt pc word r
    return i

/-- What a cycle prints. A call to machine code tells the address that is kept. -/
def cycleLog (c : Debug.Categories) (p : Processor) : List String :=
  if c.enabled (some "cpu") then
    match Machine.fetch p.shown with
    | .ok (word, i) _ =>
      c.log "cpu" ("pc=" ++ Text.lowerHex 4 p.machine.cpu.pc ++ " opcode=" ++ Text.lowerHex 4 word
          ++ " " ++ i.mnemonic)
        ++ if Routine.ofName? i.routine = some .machineCall then
            c.log "cpu" ("ignored sys call " ++ Text.lowerHex 3 (Operands.ofWord word).nnn
              ++ " at " ++ Text.lowerHex 4 (p.begun p.machine.cpu.pc word).latch.pc)
          else []
    | .error _ _ => []
  else []

/-- The address and the word that are kept stay. -/
def reset (p : Processor) : Processor :=
  { p with machine := { p.machine with cpu := {}, cycles := 0 }, slots := p.slots.clear }

/-- Another processor, which is new, in the place of this one. -/
def renewed (p : Processor) : Processor where
  machine :=
    { bus := p.machine.bus, font := p.machine.font, ram := p.machine.ram
      advances := p.machine.advances, table := p.machine.table, keypad := p.machine.keypad
      display := p.machine.display, random := p.machine.random, rom := p.machine.rom }
  slots := .fresh 16

/-- The first processor is the machine with all that it keeps. -/
abbrev Shows (p : Processor) (m : Machine) : Prop := p.shown = m

theorem shown_of_stack {p : Processor} (h : p.machine.stack = p.slots.shown) : p.shown = p.machine := by
  unfold shown
  rw [← h]

variable (p : Processor)

theorem onSlots_inStep {α : Type} {act : EStateM StackFault Slots α}
    {act' : EStateM StackFault CallStack α}
    (h : InStep Slots.Shows (act p.slots) (act' p.slots.shown)) :
    InStep Shows (onSlots act p) (Machine.onStack act' p.shown) := by
  unfold onSlots Machine.onStack
  rw [show p.shown.stack = p.slots.shown from rfl]
  revert h
  generalize act p.slots = x
  generalize act' p.slots.shown = y
  intro h
  cases h with
  | ok h => exact .ok (congrArg (fun s => { p.machine with stack := s }) h)
  | error h => exact .error (congrArg (fun s => { p.machine with stack := s }) h)

theorem onMachine_inStep {α : Type} {act : Machine.Action α}
    (h : (leftBy act p.shown).stack = p.slots.shown) :
    InStep Shows (onMachine act p) (act p.shown) := by
  have hshown {m : Machine} (hm : leftBy act p.shown = m) :
      ({ p with machine := m } : Processor).shown = m := shown_of_stack (hm ▸ h)
  unfold onMachine
  cases hact : act p.shown with
  | ok a m => exact .ok (hshown (leftBy_of_ok hact))
  | error f m => exact .error (hshown (leftBy_of_error hact))

theorem stack_leftBy_run {r : Routine} (hr : .stack ∉ r.writes) (pc : Int) (w : Nat)
    (m : Machine) : (leftBy (r.run pc w) m).stack = m.stack := by
  cases h : r.run pc w m with
  | ok _ t =>
    rw [leftBy_of_ok h]
    exact Routine.run_same (p := .stack) h hr
  | error f t => rw [leftBy_of_error h, Routine.run_error_rest h]

theorem run_inStep (r : Routine) :
    InStep Shows (run r p) (r.run p.latch.pc p.latch.opcode p.shown) := by
  -- whatever leaves the stack alone is carried out on the machine as it is seen
  have hstill (hr : .stack ∉ r.writes) :
      InStep Shows (onMachine (r.run p.latch.pc p.latch.opcode) p)
        (r.run p.latch.pc p.latch.opcode p.shown) :=
    p.onMachine_inStep (stack_leftBy_run hr _ _ _)
  cases r with
  | returnFrom =>
    exact (p.onSlots_inStep p.slots.pop_inStep).bind fun a q _ hq => hq ▸ q.onMachine_inStep rfl
  | call =>
    exact (p.onSlots_inStep (p.slots.push_inStep _)).bind fun _ q _ hq => hq ▸ q.onMachine_inStep rfl
  | waitKey => exact .error rfl
  | _ => exact hstill (by decide)

theorem runAt_inStep (pc : Int) (w : Nat) (r : Routine) :
    InStep Shows (runAt pc w r p) (Machine.runAt pc w r p.shown) := by
  have hrun := run_inStep (p.begun pc w) r
  change InStep Shows _ (r.run pc w
    { p.shown with cpu := { p.shown.cpu with pc := (pc + 2) % 65536 } }) at hrun
  unfold runAt Machine.runAt
  revert hrun
  generalize run r _ = x
  generalize r.run pc w _ = y
  intro hrun
  cases hrun with
  | ok h => exact .ok (congrArg (fun m : Machine => { m with cycles := m.cycles + 1 }) h)
  | error h => exact .error (congrArg (fun m : Machine => { m with cpu := { m.cpu with pc } }) h)

/-- What the processor keeps besides has no part in a cycle. -/
theorem cycle_inStep : InStep Shows (cycle p) (Machine.cycle p.shown) := by
  unfold cycle Machine.cycle
  refine InStep.get_bind ?_
  refine (p.onMachine_inStep ?_).bind fun found q t hq => ?_
  · cases h : Machine.fetch p.shown with
    | ok a t =>
      obtain ⟨_, _, rfl⟩ := Machine.fetch_eq_ok.mp h
      rw [leftBy_of_ok h]
      rfl
    | error f t =>
      obtain ⟨_, rfl⟩ := Machine.fetch_eq_error.mp h
      rw [leftBy_of_error h]
      rfl
  · obtain ⟨word, i⟩ := found
    subst hq
    dsimp only
    cases Routine.ofName? i.routine with
    | none => exact .error rfl
    | some r => exact (q.runAt_inStep _ word r).bind fun _ _ _ hs => .ok hs

theorem cycleLog_eq (c : Debug.Categories) : p.cycleLog c = p.shown.cycleLog c := rfl

theorem shown_reset : p.reset.shown = p.shown.reset := by
  unfold shown Machine.reset
  dsimp only
  rw [← Slots.shown_clear]
  rfl

/-- Nothing but the address and the word that are kept tells a reset from a new processor. -/
theorem shown_renewed (h : p.shown.stack.capacity = 16) : p.renewed.shown = p.reset.shown := by
  have hslots : p.slots.clear = .fresh 16 := congrArg Slots.fresh h
  unfold shown renewed reset
  rw [hslots]

end Processor

end Chip8
