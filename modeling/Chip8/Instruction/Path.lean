import Chip8.Instruction.Field
import Chip8.Instruction.Value
import Chip8.Text.DecimalDigit

/-! Paths: the name of an operand field, and steps from its number to other values.
A step is a part behind a point, or an item in square brackets. -/

namespace Chip8.Value

/-- The number of a place, if all are decimal digits. The number is read on the way
and must be one that places are counted by. -/
def place? (sofar : Nat) : List Char → Except TemplateError (Option Nat)
  | [] => .ok (some sofar)
  | c :: cs => match Text.digitValue? c with
    | none => .ok none
    | some d =>
      if Limit.count < sofar * 10 + d then .error .malformed else place? (sofar * 10 + d) cs

/-- Follows the steps of a path. Fuel: each takes at least one character. -/
def follow (host : Template.Host) (v : Value) : Nat → List Char → Except TemplateError Value
  | fuel + 1, '.' :: cs => do
    let (name, rest) := cs.span fun c => c ≠ '.' ∧ c ≠ '['
    if name.isEmpty then throw .malformed
    match v.part? host (String.ofList name) with
    | some v => follow host v fuel rest
    | none => throw (.noPart (String.ofList name))
  | fuel + 1, '[' :: cs => do
    let (name, rest) := cs.span (· ≠ ']')
    let place ← place? 0 name
    if name.isEmpty || rest.isEmpty then throw .malformed
    follow host (← v.item host (String.ofList name) place) fuel (rest.drop 1)
  | _, [] => .ok v
  | _, _ => .error .malformed

/-- The value of a name and a path; no name at all stands for the next argument. -/
def find (host : Template.Host) (o : Operands) (name : List Char) : Except TemplateError Value := do
  let (first, path) := name.span fun c => c ≠ '.' ∧ c ≠ '['
  if (← place? 0 first).isSome then throw .noPlace
  match Field.ofName? first with
  | none => throw (.unknownField (String.ofList first))
  | some f => follow host (.number (f.read o)) path.length path

end Chip8.Value
