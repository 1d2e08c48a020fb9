import Chip8.Debug
import Chip8.Word

/-! The hexadecimal keypad. Sixteen keys are up or down; listeners hear of each
change in the order in which they were added, and of nothing else. Keys are
pressed by number or by the name of a host key:

    1 2 3 C      1 2 3 4
    4 5 6 D  ->  q w e r
    7 8 9 E      a s d f
    A 0 B F      z x c v -/

namespace Chip8

structure KeyError where
  key : Int
deriving DecidableEq

def KeyError.message (e : KeyError) : String :=
  "key index " ++ Text.decimal e.key ++ " out of range (0-15)"

/-- What one listener hears. -/
structure KeyEvent where
  listener : Nat
  key : Nibble
  pressed : Bool
deriving DecidableEq, Repr

structure Keypad where
  keys : Vector Bool 16 := Vector.replicate 16 false
  /-- Listeners are numbered in the order in which they were added. -/
  listeners : Nat := 0

namespace Keypad

def hostKeys : List (String × Nibble) :=
  ["1", "2", "3", "4", "q", "w", "e", "r", "a", "s", "d", "f", "z", "x", "c", "v"].zip
    ([0x1, 0x2, 0x3, 0xC, 0x4, 0x5, 0x6, 0xD, 0x7, 0x8, 0x9, 0xE, 0xA, 0x0, 0xB, 0xF].map nibbleOf)

/-- Host keys go by name in either case. -/
def ofName? (name : String) : Option Nibble := hostKeys.lookup (Text.lowercase name)

def ofIndex (key : Int) : Except KeyError Nibble :=
  if 0 ≤ key ∧ key < 16 then .ok (nibbleOf key) else .error ⟨key⟩

def isDown (p : Keypad) (k : Nibble) : Bool := p.keys.get k

def isPressed (p : Keypad) (key : Int) : Except KeyError Bool :=
  return p.isDown (← ofIndex key)

/-- Sets one key; every listener hears of it if that is a change. -/
def set (p : Keypad) (k : Nibble) (pressed : Bool) : List KeyEvent × Keypad :=
  (if p.isDown k = pressed then [] else (List.range p.listeners).map (⟨·, k, pressed⟩),
    { p with keys := setAt p.keys k pressed })

def setIndex (p : Keypad) (key : Int) (pressed : Bool) :
    Except KeyError (List KeyEvent × Keypad) :=
  return p.set (← ofIndex key) pressed

/-- Tells whether the name belongs to a key; if not, nothing happens. -/
def setNamed (p : Keypad) (name : String) (pressed : Bool) : Bool × List KeyEvent × Keypad :=
  match ofName? name with
  | some k => (true, p.set k pressed)
  | none => (false, [], p)

/-- Lets go of all keys. Listeners do not hear of it. -/
def reset (p : Keypad) : Keypad := { p with keys := Vector.replicate 16 false }

def addListener (p : Keypad) : Nat × Keypad :=
  (p.listeners, { p with listeners := p.listeners + 1 })

def truthText (b : Bool) : String := if b then "True" else "False"

/-- What setting a key prints, a change or not. -/
def setLog (c : Debug.Categories) (k : Nibble) (pressed : Bool) : List String :=
  c.log "input" ("key=" ++ Text.upperHex 0 k.val ++ " pressed=" ++ truthText pressed)

def setIndexLog (c : Debug.Categories) (key : Int) (pressed : Bool) : List String :=
  match ofIndex key with
  | .ok k => setLog c k pressed
  | .error _ => []

def setNamedLog (c : Debug.Categories) (name : String) (pressed : Bool) : List String :=
  match ofName? name with
  | some k => setLog c k pressed
  | none => c.log "input" ((if pressed then "unmapped_press=" else "unmapped_release=") ++ name)

end Keypad

end Chip8
