import Chip8.Limit
import Chip8.Text.Layout
import Chip8.Text.Quoted

/-! Values that the paths of a listing template lead to. The way begins at the number
of an operand field. Each step names a part of a value, or one of its items. A number
has four parts of its own; what else a path can reach is the host's. -/

namespace Chip8

inductive TemplateError
  /-- There is no value of this name. -/
  | unknownField (name : String)
  /-- A list ends before this place, or there is no list at all. -/
  | noPlace
  /-- The value has no part of this name. -/
  | noPart (name : String)
  /-- The value has no items, or they do not have names. -/
  | noItem
  /-- The value is written without a style only. -/
  | noStyle
  | malformed
  | limit (e : LimitError)
deriving DecidableEq

inductive Value
  | number (n : Nat)
  | text (s : String)
  /-- A value of the host, which goes by the way it is written. -/
  | foreign (shown : String)

/-- What a template finds on its host. Values have no parts and items beyond those that
they have everywhere, unless the host says so. -/
structure Template.Host where
  room : Room := .unlimited
  part? : Value → String → Option Value := fun _ _ => none
  item : Value → String → Except TemplateError Value := fun _ _ => .error .noItem

namespace Value

/-- A whole number as a complex number and as a fraction. -/
def ofNumber? (n : Nat) : String → Option Value
  | "real" | "numerator" => some (number n)
  | "imag" => some (number 0)
  | "denominator" => some (number 1)
  | _ => none

def part? (host : Template.Host) (v : Value) (name : String) : Option Value :=
  match v with
  | number n => (ofNumber? n name).or (host.part? v name)
  | v => host.part? v name

/-- The item of a name, or of a place if the name is one. The items of a text are its
characters. -/
def item (host : Template.Host) (v : Value) (name : String) (place : Option Nat) :
    Except TemplateError Value :=
  match v, place with
  | text s, some i => match s.toList[i]? with
    | some c => .ok (text (String.singleton c))
    | none => .error .noPlace
  | v, _ => host.item v name

/-- A value as a program would spell it, with text in quotes. -/
def shown : Value → String
  | number n => Text.decimal n
  | text s => Text.quoted s
  | foreign s => s

/-- Text stands as it is. -/
def plain : Value → String
  | text s => s
  | v => v.shown

/-- A value as the text that a conversion makes of it. -/
def convert? (v : Value) : Char → Option String
  | 's' => some v.plain
  | 'r' => some v.shown
  | 'a' => some (Text.asciiOnly v.shown)
  | _ => none

/-- A value in a style; only numbers and text have one that is not empty. -/
def write (room : Room) (v : Value) (style : List Char) : Except TemplateError (List Char) :=
  let styled (write : Text.Style → Except Text.LayoutError (List Char)) :=
    match Text.Style.read? style with
    | none => .error .malformed
    | some style => match write style with
      | .ok cs => .ok cs
      | .error .unfit => .error .malformed
      | .error (.limit e) => .error (.limit e)
  match v with
  | number n => styled (·.writeNat room n)
  | text s => styled (·.writeText room s.toList)
  | foreign s => if style.isEmpty then .ok s.toList else .error .noStyle

end Value

end Chip8
