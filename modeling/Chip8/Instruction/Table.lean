import Chip8.Instruction.Basic

/-! Instruction tables. Instructions are grouped by the leading digit of their
pattern and kept most specific first, so the first match in a group wins; among
equally specific ones the earlier registration stands first. A pattern whose
first nibble is an operand sits in group zero. -/

namespace Chip8

structure DuplicatePattern where
  pattern : Pattern
  /-- The instruction that has the pattern already. -/
  mnemonic : String
deriving DecidableEq

def DuplicatePattern.message (e : DuplicatePattern) : String :=
  "pattern " ++ e.pattern.toText ++ " already registered as " ++ e.mnemonic

structure InstructionTable where
  /-- In the order of registration. -/
  entries : List Instruction := []
  groups : Vector (List Instruction) 16 := Vector.replicate 16 []

namespace InstructionTable

/-- Goes behind everything that is at least as specific. -/
def place (i : Instruction) : List Instruction → List Instruction
  | [] => [i]
  | j :: js => if i.specificity ≤ j.specificity then j :: place i js else i :: j :: js

def insert (t : InstructionTable) (i : Instruction) : InstructionTable :=
  let k := i.pattern.leading
  { entries := t.entries ++ [i], groups := setAt t.groups k (place i (t.groups.get k)) }

def register (i : Instruction) : EStateM DuplicatePattern InstructionTable Unit := do
  match (← get).entries.find? (·.pattern = i.pattern) with
  | some e => throw ⟨i.pattern, e.mnemonic⟩
  | none => modify (·.insert i)

/-- Stops at the first duplicate and keeps what went in before it. -/
def registerAll : List Instruction → EStateM DuplicatePattern InstructionTable Unit
  | [] => pure ()
  | i :: is => do register i; registerAll is

def build (is : List Instruction) : Except DuplicatePattern InstructionTable :=
  match (registerAll is).run {} with
  | .ok _ t => .ok t
  | .error e _ => .error e

def size (t : InstructionTable) : Nat := t.entries.length

/-- Only the group of the word's leading nibble is searched. -/
def lookup (t : InstructionTable) (word : Int) : Option Instruction :=
  (t.groups.get (nibbleOf (word / 4096))).find? (·.accepts word)

end InstructionTable

end Chip8
