import Chip8.Limit
import Chip8.Text.Binary64
import Chip8.Text.Quoted

/-! Messages with percent directives. A directive is flags, a width, a precision
and a kind; each takes the next argument, and every argument has to be taken.
Directives are filled from the left, and the first that fails decides why the
message has no filled form. -/

namespace Chip8.Text

inductive Arg
  | integer (v : Int)
  | real (x : Binary64)
  /-- A number beyond all others. -/
  | infinite (negative : Bool)
  /-- What stands for a number where there is none. -/
  | undefined
  | text (s : String)
  | truth (b : Bool)
  | absent
  | list (items : List Arg)
  /-- Values with names, one for each. -/
  | record (names : List String) (items : List Arg)
deriving Inhabited

namespace Arg

mutual

/-- A value as it is written inside another, with text in quotes. -/
def shown : Arg → String
  | integer v => decimal v
  | real x => x.text
  | infinite negative => if negative then "-inf" else "inf"
  | undefined => "nan"
  | text s => quoted s
  | truth b => if b then "True" else "False"
  | absent => "None"
  | list items => "[" ++ ", ".intercalate (shownAll items) ++ "]"
  | record names items =>
    let fields := List.zipWith (fun name item => quoted name ++ ": " ++ item) names (shownAll items)
    "\x7b" ++ ", ".intercalate fields ++ "\x7d"

def shownAll : List Arg → List String
  | [] => []
  | a :: as => shown a :: shownAll as

end

/-- A number from its decimal notation, or from its name if it has no digits. -/
def ofNumeral (s : String) : Arg :=
  if s = "NaN" then undefined
  else match Binary64.ofText? s with
    | some x => real x
    | none => infinite (s.toList.head? = some '-')

/-- Text stands as it is. -/
def plain : Arg → String
  | text s => s
  | a => a.shown

/-- The arguments in brackets; a single one is followed by a comma. -/
def tuple (args : List Arg) : String :=
  match args with
  | [a] => "(" ++ a.shown ++ ",)"
  | _ => "(" ++ ", ".intercalate (args.map shown) ++ ")"

def integer? : Arg → Option Int
  | integer v => some v
  | truth b => some (if b then 1 else 0)
  | _ => none

/-- As `integer?`; the places of a number do not count. -/
def whole? : Arg → Option Int
  | real x => some x.truncated
  | a => a.integer?

end Arg

/-- Why a message has no filled form. -/
inductive FillError
  /-- The message does not fit its arguments. -/
  | mismatch
  | limit (e : LimitError)
deriving DecidableEq

structure Directive where
  left : Bool := false
  plus : Bool := false
  blank : Bool := false
  zero : Bool := false
  alternate : Bool := false
  width : Nat := 0
  precision : Option Nat := none

namespace Directive

variable (room : Room)

def addFlag? (d : Directive) : Char → Option Directive
  | '-' => some { d with left := true }
  | '+' => some { d with plus := true }
  | ' ' => some { d with blank := true }
  | '0' => some { d with zero := true }
  | '#' => some { d with alternate := true }
  | _ => none

def flags (d : Directive) : List Char → Directive × List Char
  | [] => (d, [])
  | c :: cs => match d.addFlag? c with
    | some d => d.flags cs
    | none => (d, c :: cs)

/-- A flag to the left wins over zeros, a plus over a blank. -/
def pad (d : Directive) (numeric : Bool) (head body : List Char) :
    Except FillError (List Char) :=
  let gap := d.width - (head.length + body.length)
  if !room.holds gap then .error (.limit .noRoom)
  else if d.left then .ok (head ++ body ++ List.replicate gap ' ')
  else if numeric && d.zero then .ok (head ++ zeros gap ++ body)
  else .ok (List.replicate gap ' ' ++ head ++ body)

def signOf (d : Directive) (negative : Bool) : List Char :=
  if negative then ['-'] else if d.plus then ['+'] else if d.blank then [' '] else []

def writeText (d : Directive) (s : String) : Except FillError (List Char) :=
  let cs := s.toList
  d.pad room false [] (match d.precision with | some p => cs.take p | none => cs)

/-- Digits leave room for a sign and a lead. -/
def writeInteger (d : Directive) (base : Nat) (upper : Bool) (v : Int) :
    Except FillError (List Char) :=
  let places := d.precision.getD 0
  let mark := if base = 16 then (if upper then 'X' else 'x') else 'o'
  let lead := if d.alternate && base != 10 then ['0', mark] else []
  if Limit.shortCount < places + 3 then .error (.limit .outOfRange)
  else d.pad room true (d.signOf (v < 0) ++ lead)
    (Numeral.digits { base, upper, places } v.natAbs)

def writeReal (d : Directive) (form : PointForm) (x : Binary64) : Except FillError (List Char) :=
  let (ds, rest) := form.write d.alternate (d.precision.getD 6) x.size
  d.pad room true (d.signOf x.negative) (ds ++ rest)

/-- An integer with a point is as precise as a floating point number. -/
def writePoint (d : Directive) (form : PointForm) (a : Arg) : Except FillError (List Char) :=
  match a with
  | .real x => d.writeReal room form x
  | a => match a.integer? with
    | some v => match Binary64.ofInt? v with
      | some x => d.writeReal room form x
      | none => .error (.limit .outOfRange)
    | none => .error .mismatch

/-- A name in the place of digits, in capitals if the kind is one. -/
def writeName (d : Directive) (kind : Char) (negative : Bool) (name : String) :
    Except FillError (List Char) :=
  d.pad room true (d.signOf negative)
    (name.toList.map fun c => if kind.isUpper then c.toUpper else c)

/-- The character of a number. -/
def writeCharacter (d : Directive) (v : Int) : Except FillError (List Char) :=
  if 0 ≤ v ∧ v < 0x110000 then d.pad room false [] [Char.ofNat v.toNat]
  else .error (.limit .outOfRange)

/-- Writes what has to be there. -/
def orMismatch (write : Int → Except FillError (List Char)) : Option Int →
    Except FillError (List Char)
  | some v => write v
  | none => .error .mismatch

def write (d : Directive) (kind : Char) (a : Arg) : Except FillError (List Char) :=
  match kind, a with
  | 's', a => d.writeText room a.plain
  | 'r', a => d.writeText room a.shown
  | 'a', a => d.writeText room (asciiOnly a.shown)
  | 'c', .text s => if s.length = 1 then d.pad room false [] s.toList else .error .mismatch
  | 'c', a => orMismatch (d.writeCharacter room) a.integer?
  | 'd', .infinite _ | 'i', .infinite _ | 'u', .infinite _ => .error (.limit .outOfRange)
  | 'd', a | 'i', a | 'u', a => orMismatch (d.writeInteger room 10 false) a.whole?
  | 'o', a => orMismatch (d.writeInteger room 8 false) a.integer?
  | 'x', a => orMismatch (d.writeInteger room 16 false) a.integer?
  | 'X', a => orMismatch (d.writeInteger room 16 true) a.integer?
  | kind, a => match PointForm.ofChar? kind, a with
    | some _, .infinite negative => d.writeName room kind negative "inf"
    | some _, .undefined => d.writeName room kind false "nan"
    | some form, a => d.writePoint room form a
    | none, _ => .error .mismatch

end Directive

/-- A number in the message, or a star for the next argument. The number has to
fit the message, the argument has to fit the count. -/
def readCount (limit : Nat) (cs : List Char) (args : List Arg) :
    Except FillError (Option Int × List Char × List Arg) :=
  match cs with
  | '*' :: cs => match args with
    | [] => .error .mismatch
    | a :: args => match a.integer? with
      | none => .error .mismatch
      | some v =>
        if -(limit : Int) - 1 ≤ v ∧ v ≤ limit then .ok (some v, cs, args)
        else .error (.limit .outOfRange)
  | _ =>
    let (ds, rest) := cs.span Char.isDigit
    let n := Nat.ofDigitChars 10 ds 0
    if limit < n then .error .mismatch
    else .ok (if ds.isEmpty then none else some n, rest, args)

/-- A width below zero asks for the left side; the least of all has no positive
counterpart and asks for nothing more. -/
def Directive.setWidth (d : Directive) (width : Int) : Directive :=
  { d with width := if Limit.count < width.natAbs then 0 else width.natAbs,
           left := d.left || width < 0 }

/-- Fills one directive, read behind its percent sign. -/
def fillDirective (room : Room) (cs : List Char) (args : List Arg) :
    Except FillError (List Char × List Char × List Arg) := do
  let (d, cs) := Directive.flags {} cs
  let (width, cs, args) ← readCount Limit.count cs args
  let d := d.setWidth (width.getD 0)
  let (d, cs, args) ← match cs with
    | '.' :: cs => do
      let (p, cs, args) ← readCount Limit.shortCount cs args
      pure ({ d with precision := some (p.getD 0).toNat }, cs, args)
    | _ => pure (d, cs, args)
  let cs := match cs with
    | 'h' :: cs | 'l' :: cs | 'L' :: cs => cs
    | cs => cs
  match cs, args with
  | kind :: cs, a :: args => return (← d.write room kind a, cs, args)
  | _, _ => throw .mismatch

/-- Fuel: every directive takes at least one character of the message. -/
def fillChars (room : Room) : Nat → List Char → List Arg → Except FillError (List Char)
  | _, [], args => if args.isEmpty then .ok [] else .error .mismatch
  | 0, _ :: _, _ => .error .mismatch
  | fuel + 1, '%' :: '%' :: cs, args => do return '%' :: (← fillChars room fuel cs args)
  | fuel + 1, '%' :: cs, args => do
    let (written, cs, args) ← fillDirective room cs args
    return written ++ (← fillChars room fuel cs args)
  | fuel + 1, c :: cs, args => do return c :: (← fillChars room fuel cs args)

def fill (room : Room) (message : String) (args : List Arg) : Except FillError String :=
  return String.ofList (← fillChars room message.length message.toList args)

end Chip8.Text
