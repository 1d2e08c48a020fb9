import Chip8.Instruction.Path

/-! Text with holes. Between its braces a hole has a name, perhaps a conversion
behind an exclamation mark and a style behind a colon. A brace written twice stands
for itself. Reading never fails: where the text cannot be read on, a fault ends it. -/

namespace Chip8

/-- What stands between the braces. -/
structure Hole where
  name : List Char
  conversion : Option Char := none
  style : List Char := []

namespace Hole

def openBrace : Char := '\x7b'
def closeBrace : Char := '\x7d'

/-- The name and the rest, which begins with what ends the name. Square brackets
hide what would end it. -/
def readName? (bracketed : Bool) (name : List Char) : List Char → Option (List Char × List Char)
  | [] => none
  | c :: cs =>
    if bracketed then readName? (c ≠ ']') (c :: name) cs
    else if c = openBrace then none
    else if c = closeBrace ∨ c = ':' ∨ c = '!' then some (name.reverse, c :: cs)
    else readName? (c = '[') (c :: name) cs

/-- The style up to the brace that closes the hole; braces inside come in pairs. -/
def readStyle? (depth : Nat) (style : List Char) : List Char → Option (List Char × List Char)
  | [] => none
  | c :: cs =>
    if c = openBrace then readStyle? (depth + 1) (c :: style) cs
    else if c = closeBrace then
      match depth with
      | 0 => some (style.reverse, cs)
      | depth + 1 => readStyle? depth (c :: style) cs
    else readStyle? depth (c :: style) cs

/-- Reads a hole behind its opening brace; a hole that is not closed is none. A
conversion of NUL stands for no conversion. -/
def read? (cs : List Char) : Option (Hole × List Char) := do
  let (name, rest) ← readName? false [] cs
  match rest with
  | '!' :: mark :: c :: cs =>
    let conversion := if mark = '\x00' then none else some mark
    if c = closeBrace then return ({ name, conversion }, cs)
    else if c = ':' then
      let (style, cs) ← readStyle? 0 [] cs
      return ({ name, conversion, style }, cs)
    else none
  | ':' :: cs =>
    let (style, cs) ← readStyle? 0 [] cs
    return ({ name, style }, cs)
  | c :: cs => if c = closeBrace then return ({ name }, cs) else none
  | [] => none

/-- The value that fills the hole. It is found before it is converted. -/
def value (host : Template.Host) (h : Hole) (o : Operands) : Except TemplateError Value := do
  let v ← Value.find host o h.name
  match h.conversion with
  | none => return v
  | some c => match v.convert? c with
    | some s => return .text s
    | none => throw .malformed

end Hole

/-- A part of a text with holes. -/
inductive Mark
  | text (cs : List Char)
  | hole (h : Hole)
  | fault

namespace Mark

open Hole

private def flush (cs : List Char) : List Mark :=
  if cs.isEmpty then [] else [.text cs.reverse]

/-- `text` is the text read since the last hole, backwards. Fuel: each step takes at
least one character. -/
def scan (text : List Char) : Nat → List Char → List Mark
  | fuel + 1, c :: cs =>
    if c ≠ openBrace ∧ c ≠ closeBrace then scan (c :: text) fuel cs
    else if cs.head? = some c then scan (c :: text) fuel (cs.drop 1)
    else if c = closeBrace then flush text ++ [.fault]
    else match Hole.read? cs with
      | some (h, rest) => flush text ++ .hole h :: scan [] fuel rest
      | none => flush text ++ [.fault]
  | _, _ => flush text

def ofChars (cs : List Char) : List Mark := scan [] cs.length cs

end Mark

end Chip8
