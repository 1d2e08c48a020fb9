import Chip8.Text.Numeral
import Chip8.Text.Printable

/-! Text in quotes for messages. Single quotes are the rule; text with a single
quote and no double one takes double quotes. The quote in use and the backslash
are escaped, and so is every character that would not print. -/

namespace Chip8.Text

def backslash : Char := '\x5c'
def singleQuote : Char := '\x27'
def doubleQuote : Char := '\x22'

/-- The narrowest of the three numeric escapes that holds the code point. -/
def numericEscape (n : Nat) : List Char :=
  let hex (places : Nat) := Numeral.digits { base := 16, places } n
  if n < 0x100 then backslash :: 'x' :: hex 2
  else if n < 0x10000 then backslash :: 'u' :: hex 4
  else backslash :: 'U' :: hex 8

def quotedChar (quote c : Char) : List Char :=
  if c = quote ∨ c = backslash then [backslash, c]
  else if c = '\n' then [backslash, 'n']
  else if c = '\r' then [backslash, 'r']
  else if c = '\t' then [backslash, 't']
  else if isPrintable c then [c]
  else numericEscape c.toNat

def quoteFor (cs : List Char) : Char :=
  if singleQuote ∈ cs ∧ doubleQuote ∉ cs then doubleQuote else singleQuote

def quoted (s : String) : String :=
  let quote := quoteFor s.toList
  String.ofList (quote :: s.toList.flatMap (quotedChar quote) ++ [quote])

/-- The text with an escape for every character beyond ASCII. -/
def asciiOnly (s : String) : String :=
  String.ofList (s.toList.flatMap fun c => if c.toNat < 0x80 then [c] else numericEscape c.toNat)

end Chip8.Text
