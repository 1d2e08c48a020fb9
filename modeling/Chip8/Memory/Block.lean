import Chip8.Memory.Fault
import Chip8.Word

/-! Memory blocks: regions of bytes, and guests, which are whatever else answers to
addresses. A region refuses addresses outside its own range; the font is a region
that refuses single stores but takes whole images. -/

namespace Chip8

structure Region where
  start : Nat
  bytes : Array UInt8
  /-- A region is never empty. -/
  size_pos : 0 < bytes.size

namespace Region

def ofBytes (start : Int) (bytes : Array UInt8) : Except MemoryFault Region :=
  if h : 0 ≤ start ∧ 0 < bytes.size then .ok ⟨start.toNat, bytes, h.2⟩ else .error .badRegion

/-- A region of zeros. -/
def blank (start length : Int) (room : Room := .unlimited) : Except MemoryFault Region :=
  if start < 0 ∨ length ≤ 0 then .error .badRegion
  else match room.check length.toNat with
    | .ok () => ofBytes start (Array.replicate length.toNat 0)
    | .error e => .error (.limit e)

def stop (r : Region) : Int := r.start + r.bytes.size - 1

def offset (r : Region) (address : Int) : Except MemoryFault Nat :=
  let k := address - r.start
  if 0 ≤ k ∧ k < r.bytes.size then .ok k.toNat
  else .error (.outsideRegion address r.start r.stop)

def load (r : Region) (address : Int) : Except MemoryFault UInt8 :=
  return r.bytes.getD (← r.offset address) 0

def put (r : Region) (k : Nat) (b : UInt8) : Region :=
  { r with bytes := r.bytes.setIfInBounds k b, size_pos := by simpa using r.size_pos }

def store (r : Region) (address value : Int) : Except MemoryFault Region :=
  return r.put (← r.offset address) (byteOf value)

/-- The bytes one after another from offset `k` on. -/
def overlay (r : Region) (k : Nat) : List UInt8 → Region
  | [] => r
  | b :: bs => (r.put k b).overlay (k + 1) bs

/-- The whole image or nothing. -/
def loadImage (r : Region) (address : Int) (image : List UInt8) : Except MemoryFault Region := do
  let k ← r.offset address
  if r.bytes.size < k + image.length then
    throw (.imageOverrun image.length address r.stop)
  return r.overlay k image

end Region

/-- What a guest has to do: it lies at its addresses, and it loads and stores there. -/
class Addressable (γ : Type) where
  start : γ → Int
  stop : γ → Int
  load8 : γ → Int → Except MemoryFault Int
  store8 : γ → Int → Int → Except MemoryFault γ

/-- There are no guests unless a program brings some. -/
instance : Addressable Empty := ⟨nofun, nofun, nofun, nofun⟩

/-- Kinds of region. -/
inductive RegionKind
  | ram
  | mainRam
  | font
deriving DecidableEq, Repr

inductive Block (γ : Type := Empty)
  | region (kind : RegionKind) (r : Region)
  | guest (g : γ)

inductive BlockKind
  | region (kind : RegionKind)
  | guest
deriving DecidableEq, Repr

namespace Block

variable {γ : Type} [Addressable γ]

def kind : Block γ → BlockKind
  | region k _ => .region k
  | guest _ => .guest

def start : Block γ → Int
  | region _ r => r.start
  | guest g => Addressable.start g

def stop : Block γ → Int
  | region _ r => r.stop
  | guest g => Addressable.stop g

def isFont : Block γ → Bool
  | region .font _ => true
  | _ => false

def load8 : Block γ → Int → Except MemoryFault Int
  | region _ r, a => return (← r.load a).toNat
  | guest g, a => Addressable.load8 g a

def store8 : Block γ → Int → Int → Except MemoryFault (Block γ)
  | region .font _, a, _ => .error (.readOnly a)
  | region k r, a, v => return region k (← r.store a v)
  | guest g, a, v => return guest (← Addressable.store8 g a v)

def load16 (b : Block γ) (a : Int) : Except MemoryFault Nat := do
  let high ← b.load8 a
  let low ← b.load8 (a + 1)
  return wordFrom (byteOf high) (byteOf low)

/-- High byte first; it stays even when the low byte is refused. -/
def store16 (a v : Int) : EStateM MemoryFault (Block γ) Unit := fun b =>
  match b.store8 a (byteOf (v / 256)).toNat with
  | .error e => .error e b
  | .ok b => match b.store8 (a + 1) (byteOf v).toNat with
    | .error e => .error e b
    | .ok b => .ok () b

/-- Guests take no images. -/
def loadImage (b : Block) (a : Int) (image : List UInt8) : Except MemoryFault Block :=
  match b with
  | region k r => return region k (← r.loadImage a image)

/-- What the block holds, as integers. -/
def cells : Block → List Int
  | region _ r => r.bytes.toList.map fun b => (b.toNat : Int)

end Block

end Chip8
