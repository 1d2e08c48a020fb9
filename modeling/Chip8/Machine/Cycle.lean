import Chip8.Machine.Execute

/-! One cycle: fetch a word, find its instruction and its routine, run the
routine. A fault puts the program counter back to the instruction. -/

namespace Chip8.Machine

/-- The instruction at the program counter, its word, and its routine. -/
def fetch : Action (Nat × Instruction) := do
  let pc := (← get).cpu.pc
  let word ← peek (·.load16 pc)
  match (← get).decode word with
  | none => throw (.illegal pc word)
  | some i => return (word, i)

/-- Runs a routine with the program counter behind the instruction. -/
def runAt (pc : Int) (word : Nat) (r : Routine) : Action Unit := fun m =>
  match r.run pc word { m with cpu := { m.cpu with pc := (pc + 2) % 65536 } } with
  | .ok () m => .ok () { m with cycles := m.cycles + 1 }
  | .error e m => .error e { m with cpu := { m.cpu with pc } }

def cycle : Action Instruction := do
  let pc := (← get).cpu.pc
  let (word, i) ← fetch
  match Routine.ofName? i.routine with
  | none => throw (.noRoutine i.routine)
  | some r => do
    runAt pc word r
    return i

/-- What a cycle from this state prints: the instruction that was found, then a
call to machine code that is passed over. -/
def cycleLog (c : Debug.Categories) (m : Machine) : List String :=
  if c.enabled (some "cpu") then
    match fetch m with
    | .ok (word, i) _ =>
      c.log "cpu" ("pc=" ++ Text.lowerHex 4 m.cpu.pc ++ " opcode=" ++ Text.lowerHex 4 word ++ " "
          ++ i.mnemonic)
        ++ if Routine.ofName? i.routine = some .machineCall then
            c.log "cpu" ("ignored sys call " ++ Text.lowerHex 3 (Operands.ofWord word).nnn
              ++ " at " ++ Text.lowerHex 4 m.cpu.pc)
          else []
    | .error _ _ => []
  else []

end Chip8.Machine
