import Chip8.Instruction.Hole

/-! Listing templates: text with holes for operand fields. Reading a template never
fails: what is wrong with it stays in its place as a fault, so the first fault from
the left is the one reported. A style may have holes itself, which are filled before
the style is read; the styles of those may not. -/

namespace Chip8

/-- Fills the holes of a text, and before that the holes of their styles, as far as
`depth` allows. -/
def Mark.expand (host : Template.Host) (o : Operands) (cs : List Char) :
    Nat → Except TemplateError (List Char)
  | 0 => if cs.contains Hole.openBrace then .error .malformed else .ok cs
  | depth + 1 => do
    let parts ← (Mark.ofChars cs).mapM fun
      | .text cs => return cs
      | .hole h => do
        let v ← h.value host o
        v.write host.room (← expand host o h.style depth)
      | .fault => throw .malformed
    return parts.flatten

inductive Piece
  | text (cs : List Char)
  | hole (field : Field) (style : Text.Numeral)
  /-- A hole of any other form, which is read when it is filled. -/
  | free (h : Hole)
  | fault

namespace Piece

/-- The styles of plain numerals: an optional digit kind behind a zero and a digit for the
width, if there is one. There is always room for a numeral so narrow. -/
def numeralOf? (style : List Char) : Option Text.Numeral :=
  let (ds, kind) := style.span Char.isDigit
  let width := Nat.ofDigitChars 10 ds 0
  if (ds ≠ [] ∧ ds.head? ≠ some '0') ∨ 2 < ds.length then none
  else match kind with
    | [] | ['d'] => some { width }
    | ['x'] => some { base := 16, width }
    | ['X'] => some { base := 16, upper := true, width }
    | _ => none

def ofHole (h : Hole) : Piece :=
  match Field.ofName? h.name, h.conversion, numeralOf? h.style with
  | some f, none, some style => .hole f style
  | _, _, _ => .free h

def ofMark : Mark → Piece
  | .text cs => .text cs
  | .hole h => .ofHole h
  | .fault => .fault

def fill (host : Template.Host) (o : Operands) : Piece → Except TemplateError (List Char)
  | text cs => .ok cs
  | hole field style => .ok (style.chars (field.read o))
  | free h => do
    let v ← h.value host o
    v.write host.room (← Mark.expand host o h.style 1)
  | fault => .error .malformed

end Piece

abbrev Template := List Piece

namespace Template

def parse (s : String) : Template := (Mark.ofChars s.toList).map .ofMark

def fillChars (host : Host) (o : Operands) : Template → Except TemplateError (List Char)
  | [] => .ok []
  | p :: ps => do return (← p.fill host o) ++ (← fillChars host o ps)

def fill (host : Host) (t : Template) (o : Operands) : Except TemplateError String :=
  return String.ofList (← t.fillChars host o)

end Template

end Chip8
