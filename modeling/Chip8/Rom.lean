import Chip8.Debug
import Chip8.Memory.Bus

/-! Program images. An image is bare bytes and goes to address 0x200; it must
not be empty and must fit below the end of memory. -/

namespace Chip8

inductive RomError
  | empty
  | tooLarge (size : Nat)
deriving DecidableEq

/-- An image in memory, with the address of its first byte. -/
structure Rom where
  data : List UInt8
  name : String
  start : Nat

namespace Rom

def loadAddress : Nat := 0x200

def maxSize : Nat := 0x1000 - loadAddress

def validate (data : List UInt8) : Except RomError Unit :=
  if data.isEmpty then .error .empty
  else if maxSize < data.length then .error (.tooLarge data.length)
  else .ok ()

/-- The address of the last byte. -/
def stop (r : Rom) : Int := r.start + r.data.length - 1

/-- What loading the image prints. -/
def loadLog (c : Debug.Categories) (r : Rom) : List String :=
  c.log "loader"
    ("loaded " ++ (if r.name = "" then "<rom>" else r.name) ++ " " ++ Text.decimal r.data.length
      ++ " bytes at " ++ Text.lowerHex 4 r.start ++ "-" ++ Text.lowerHex 4 r.stop)

end Rom

def RomError.message : RomError → String
  | .empty => "ROM image is empty"
  | .tooLarge size =>
    "ROM image is " ++ Text.decimal size ++ " bytes; at most " ++ Text.decimal Rom.maxSize
      ++ " bytes fit above " ++ Text.addressText Rom.loadAddress

/-- Why an image is not in memory. -/
inductive LoadError
  | image (e : RomError)
  | memory (f : MemoryFault)
deriving DecidableEq

def LoadError.message : LoadError → String
  | .image e => e.message
  | .memory f => f.message

def Rom.load (data : List UInt8) (name : String) : EStateM LoadError Bus Rom := fun m =>
  match validate data with
  | .error e => .error (.image e) m
  | .ok () => match Bus.storeBlock loadAddress (data.map fun b => (b.toNat : Int)) m with
    | .error f m => .error (.memory f) m
    | .ok () m => .ok ⟨data, name, loadAddress⟩ m

end Chip8
