import Chip8.Limit
import Chip8.Text.Numeral

/-! What can go wrong with memory. Each cause carries what its message shows. -/

namespace Chip8

inductive MemoryFault
  | badRegion
  | outsideRegion (address start stop : Int)
  | imageOverrun (size : Nat) (address stop : Int)
  | readOnly (address : Int)
  | badCapacity (capacity : Int)
  | stopBeforeStart
  | exceedsSpace (start stop : Int)
  | negativeLength
  | blockOutside (start length : Int) (capacity : Nat)
  | outsideSpace (address : Int) (capacity : Nat)
  | unmapped (address : Int)
  | unallocated
  /-- What a guest raises of its own, by name. -/
  | guest (name : String)
  /-- A region is larger than can be held. -/
  | limit (e : LimitError)
deriving DecidableEq, Repr

namespace MemoryFault

open Text

/-- The addresses of a space, from zero to the last one. -/
def spaceText (capacity : Nat) : String := "0x000-" ++ addressText (capacity - 1)

def message : MemoryFault → String
  | badRegion => "memory region must have a positive length and non-negative start"
  | outsideRegion a start stop =>
    "address " ++ addressText a ++ " outside region " ++ addressText start ++ "-"
      ++ addressText stop
  | imageOverrun size a stop =>
    "image of " ++ decimal size ++ " bytes at " ++ addressText a ++ " overruns region ending "
      ++ addressText stop
  | readOnly a => "write to read-only font area at " ++ addressText a
  | badCapacity c => "capacity " ++ decimal c ++ " out of range (1-65536)"
  | stopBeforeStart => "memory end precedes start"
  | exceedsSpace start stop =>
    "memory region " ++ addressText start ++ "-" ++ addressText stop ++ " exceeds allocated space"
  | negativeLength => "negative block length"
  | blockOutside start length capacity =>
    "block " ++ addressText start ++ "+" ++ decimal length ++ " outside address space "
      ++ spaceText capacity
  | outsideSpace a capacity =>
    "address " ++ markedHex 6 a ++ " outside address space " ++ spaceText capacity
  | unmapped a => "address " ++ addressText a ++ " is not mapped"
  | unallocated => "memory space not allocated"
  | guest _ | limit _ => ""

end MemoryFault

end Chip8
