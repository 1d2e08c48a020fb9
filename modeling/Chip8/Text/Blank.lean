/-! White space, and text with it taken off both ends. -/

namespace Chip8.Text

/-- The four control characters that separate files, groups, records and units. -/
def isSeparator (c : Char) : Bool := 28 ≤ c.toNat && c.toNat ≤ 31

def isBlank (c : Char) : Bool :=
  let n := c.toNat
  (9 ≤ n && n ≤ 13) || n == 32 || isSeparator c || n == 0x85 || n == 0xa0 || n == 0x1680 ||
    (0x2000 ≤ n && n ≤ 0x200a) || n == 0x2028 || n == 0x2029 || n == 0x202f || n == 0x205f ||
    n == 0x3000

/-- What is left between the first and the last character that stays. -/
def trim (off : Char → Bool) (cs : List Char) : List Char :=
  ((cs.dropWhile off).reverse.dropWhile off).reverse

def strip (s : String) : String := String.ofList (trim isBlank s.toList)

end Chip8.Text
