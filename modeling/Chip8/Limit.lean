/-! Limits. A count fits a signed machine word, what is counted finds room on the host,
and a number that is divided by has a floating point neighbour. -/

namespace Chip8

inductive LimitError
  /-- A number is out of the range that is provided for it. -/
  | outOfRange
  /-- There is no room for so much. -/
  | noRoom
deriving DecidableEq, Repr

namespace Limit

/-- The largest number of a signed machine word. -/
def count : Nat := 9223372036854775807

/-- The largest number of half a machine word. -/
def shortCount : Nat := 2147483647

/-- The longest list: each item takes eight bytes, and bytes are counted. -/
def items : Nat := count / 8

/-- From here on numbers round to no floating point number: halfway from the
largest of them to the power of two above it. -/
def float : Nat := (1 <<< 1024) - (1 <<< 970)

end Limit

/-- The room that the host has for one text, list or row of bytes. -/
inductive Room
  | unlimited
  | upTo (cells : Nat)
deriving DecidableEq

namespace Room

def holds : Room → Nat → Bool
  | unlimited, _ => true
  | upTo m, n => n ≤ m

/-- A count out of range is found before any room is asked for. -/
def check (room : Room) (n : Nat) : Except LimitError Unit :=
  if Limit.count < n then .error .outOfRange
  else if room.holds n then .ok ()
  else .error .noRoom

/-- What is joined from pieces is counted when all of the pieces are there. -/
def checkJoined (room : Room) (n : Nat) : Except LimitError Unit :=
  if room.holds n then
    if Limit.count < n then .error .outOfRange else .ok ()
  else .error .noRoom

/-- What grows piece by piece finds no room for more than can be counted. -/
def checkGrown (room : Room) (n : Nat) : Except LimitError Unit :=
  if n ≤ Limit.count ∧ room.holds n then .ok () else .error .noRoom

def checkItems (room : Room) (n : Nat) : Except LimitError Unit :=
  if Limit.items < n ∧ n ≤ Limit.count then .error .noRoom else room.check n

end Room

end Chip8
