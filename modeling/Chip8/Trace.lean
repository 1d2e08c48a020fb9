import Chip8.Debug
import Chip8.Machine.Basic

/-! Traces: a ring of the most recent steps. A new entry takes the place of the
oldest once the ring is full. -/

namespace Chip8

namespace Trace

/-- The state before a step and what became of the step. -/
structure Entry where
  pc : UInt16
  /-- The word at the program counter, if memory holds one there. -/
  opcode : Option UInt16
  mnemonic : String
  i : UInt16
  sp : Int
  v : List UInt8
  delay : UInt8
  sound : UInt8
  note : String
deriving DecidableEq

namespace Entry

open Text

/-- Cuts each number to its field; the registers may be any number of bytes. -/
def ofNumbers (pc i delay sound sp : Int) (v : List UInt8) (opcode : Option Int)
    (mnemonic note : String) : Entry :=
  { pc := wordOf pc, opcode := opcode.map wordOf, mnemonic, i := wordOf i, sp, v,
    delay := byteOf delay, sound := byteOf sound, note }

def ofState (s : CpuState) (opcode : Option Int) (sp : Int) (mnemonic note : String) :
    Entry :=
  ofNumbers s.pc s.i s.delay s.sound sp s.v.toList opcode mnemonic note

def line (e : Entry) : String :=
  "pc=" ++ upperHex 4 e.pc.toNat ++ " opcode="
    ++ (match e.opcode with | some w => upperHex 4 w.toNat | none => "----") ++ " "
    ++ padRight 4 (if e.mnemonic = "" then "?" else e.mnemonic)
    ++ " I=" ++ upperHex 4 e.i.toNat ++ " SP=" ++ paddedDecimal 2 e.sp
    ++ " DT=" ++ upperHex 2 e.delay.toNat ++ " ST=" ++ upperHex 2 e.sound.toNat
    ++ " V=[" ++ " ".intercalate (e.v.map fun b => upperHex 2 b.toNat)
    ++ "] note=" ++ (if e.note = "" then "-" else e.note)

end Entry

end Trace

structure Trace where
  capacity : Nat
  ring : Array Trace.Entry := #[]
  /-- Where the oldest entry is, which is the first to go. -/
  oldest : Nat := 0

namespace Trace

def empty (capacity : Nat) : Trace := { capacity }

/-- The ring that is used unless another size is asked for: 256 entries. -/
def standard : Trace := empty 256

def ofCapacity (capacity : Int) (room : Room := .unlimited) : Except CapacityError Trace :=
  return empty (← CapacityError.check room capacity)

def size (t : Trace) : Nat := t.ring.size

def record (t : Trace) (e : Entry) : Trace :=
  if t.ring.size < t.capacity then { t with ring := t.ring.push e }
  else { t with ring := t.ring.setIfInBounds t.oldest e, oldest := (t.oldest + 1) % t.capacity }

/-- The entry that many places behind the oldest one. -/
def entry? (t : Trace) (k : Nat) : Option Entry := t.ring[(t.oldest + k) % t.size]?

/-- The most recent entries, the oldest of them first; without a limit all. -/
def entries (t : Trace) (limit : Option Int) : List Entry :=
  let count := match limit with
    | none => t.size
    | some n => min t.size n.toNat
  (List.range count).filterMap fun k => t.entry? (t.size - count + k)

def last? (t : Trace) : Option Entry := t.entry? (t.size - 1)

def lines (t : Trace) (limit : Option Int) : List String :=
  (t.entries limit).map Entry.line

def dump (t : Trace) (c : Debug.Categories) (category : String) (limit : Option Int) :
    List String :=
  (t.lines limit).flatMap (c.log category)

end Trace

end Chip8
