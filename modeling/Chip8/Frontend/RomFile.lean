import Chip8.Frontend.RomPath

/-! What stands at the path of a program file. -/

namespace Chip8

inductive RomFile
  | missing
  /-- There is something, but no program can be read from it. -/
  | directory
  /-- Names are not as long as this one. -/
  | badName
  | data (bytes : List UInt8)
deriving DecidableEq

namespace RomFile

def longestName : Nat := 255

def longestPath : Nat := 4095

/-- Looks a path up from the directory that holds the given files and nothing
else. Of the directories above it no more is known than that they are there. -/
def find (files : List (RomPath × List UInt8)) (p : RomPath) : RomFile :=
  if '\x00' ∈ p.text.toList then missing
  else if longestPath < p.text.utf8ByteSize then badName
  else match p.parts.dropWhile (· = "..") with
    | [] => directory
    | name :: _ =>
      if longestName < name.utf8ByteSize then badName
      else match files.lookup p with
        | some bytes => data bytes
        | none => missing

end RomFile

end Chip8
