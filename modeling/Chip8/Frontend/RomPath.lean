/-! Paths of program files. Empty parts and single dots drop out of a path; what
is left of an empty path is a dot. -/

namespace Chip8

structure RomPath where
  /-- Nothing, one slash or two. -/
  root : String
  parts : List String
deriving DecidableEq

namespace RomPath

def ofText (s : String) : RomPath :=
  { root := match s.toList.takeWhile (· = '/') with
      | [] => ""
      | [_, _] => "//"
      | _ => "/"
    parts := (s.splitOn "/").filter fun p => p ≠ "" ∧ p ≠ "." }

def text (p : RomPath) : String :=
  let s := p.root ++ "/".intercalate p.parts
  if s = "" then "." else s

/-- The last part. -/
def name (p : RomPath) : String := p.parts.getLast?.getD ""

end RomPath

end Chip8
