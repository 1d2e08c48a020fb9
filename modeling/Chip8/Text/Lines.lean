/-! Lines of text. A line ends with a line feed, a carriage return, both of them
together, or one of eight rarer characters. -/

namespace Chip8.Text

def endsLine (c : Char) : Bool :=
  let n := c.toNat
  (10 ≤ n && n ≤ 13) || (28 ≤ n && n ≤ 30) || n == 0x85 || n == 0x2028 || n == 0x2029

/-- The last line, once a line feed is put behind the text. A carriage return at
the end of the text makes one line end with that line feed. -/
def lastLine (s : String) : String :=
  let back := s.toList.reverse
  let back := if back.head? = some '\r' then back.drop 1 else back
  String.ofList (back.takeWhile fun c => !endsLine c).reverse

end Chip8.Text
