import Chip8.Limit
import Chip8.Text.Numeral
import Chip8.Word

/-! The stack of return addresses. It never holds more of them than its capacity. -/

namespace Chip8

inductive StackFault
  | overflow (address : Int) (capacity : Nat)
  | underflow
deriving DecidableEq, Repr

def StackFault.message : StackFault → String
  | overflow a capacity =>
    "stack overflow pushing " ++ Text.addressText a ++ " (capacity "
      ++ Text.decimal capacity ++ ")"
  | underflow => "stack underflow: return without matching call"

/-- Stacks and traces hold at least one item. -/
inductive CapacityError
  | notPositive
  | limit (e : LimitError)
deriving DecidableEq

namespace CapacityError

def message : CapacityError → String
  | notPositive => "capacity must be positive"
  | limit _ => ""

/-- The capacity asked for, if so many items can be held. -/
def check (room : Room) (capacity : Int) : Except CapacityError Nat :=
  if 0 < capacity then
    match room.checkItems capacity.toNat with
    | .ok () => .ok capacity.toNat
    | .error e => .error (limit e)
  else .error notPositive

end CapacityError

structure CallStack where
  capacity : Nat
  /-- The oldest first. -/
  addresses : Array UInt16
  size_le : addresses.size ≤ capacity

namespace CallStack

def empty (capacity : Nat) : CallStack := ⟨capacity, #[], Nat.zero_le _⟩

/-- The stack of a machine: sixteen addresses. -/
def standard : CallStack := empty 16

def ofCapacity (capacity : Int) (room : Room := .unlimited) : Except CapacityError CallStack :=
  return empty (← CapacityError.check room capacity)

def depth (s : CallStack) : Nat := s.addresses.size

/-- The addresses on the stack, the oldest first. -/
def toList (s : CallStack) : List UInt16 := s.addresses.toList

def push (address : Int) : EStateM StackFault CallStack Unit := fun s =>
  if h : s.addresses.size < s.capacity then
    .ok () { s with addresses := s.addresses.push (wordOf address),
                    size_le := Array.size_push _ ▸ h }
  else .error (.overflow address s.capacity) s

def pop : EStateM StackFault CallStack UInt16 := fun s =>
  match s.addresses.back? with
  | none => .error .underflow s
  | some a =>
    .ok a { s with addresses := s.addresses.pop,
                   size_le := Array.size_pop ▸ Nat.le_trans (Nat.sub_le _ _) s.size_le }

def peek? (s : CallStack) : Option UInt16 := s.addresses.back?

def clear (s : CallStack) : CallStack := empty s.capacity

end CallStack

end Chip8
