import TwoPass.Text.Printable

/-!
# Quoted text

A text between quotes, with every character that would not be seen written as an escape. Single
quotes are used, or double ones if the text holds a single quote and no double quote.
-/

namespace TwoPass.Text

/-- A backslash, a letter and a number of hexadecimal digits. -/
def hexEscape (letter : Char) (width n : Nat) : List Char :=
  '\x5c' :: letter :: (Nat.toDigits 16 n).leftpad width '0'

/-- A character as it stands between quotes of the given kind. -/
def quotedChar (quote c : Char) : List Char :=
  if c == quote || c == '\x5c' then ['\x5c', c]
  else if c == '\n' then ['\x5c', 'n']
  else if c == '\r' then ['\x5c', 'r']
  else if c == '\t' then ['\x5c', 't']
  else if isPrintable c then [c]
  else
    let n := c.toNat
    if n < 0x100 then hexEscape 'x' 2 n
    else if n < 0x10000 then hexEscape 'u' 4 n
    else hexEscape 'U' 8 n

/-- The quote that a text is put between. -/
def quoteFor (cs : List Char) : Char :=
  if cs.contains '\x27' && !cs.contains '\x22' then '\x22' else '\x27'

/-- The text between quotes. -/
def quoted (s : String) : String :=
  let quote := quoteFor s.toList
  String.ofList (quote :: s.toList.flatMap (quotedChar quote) ++ [quote])

end TwoPass.Text
