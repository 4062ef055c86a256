import TwoPass.Text.Extent

/-!
# Numerals

Integers in positional notation, written and read. A padded numeral is filled with zeros between
its sign and its digits, and the sign counts in its width.

Reading a decimal numeral has a limit on its digits, which is with the literals. A limit of that
kind on writing one is left out: `decimal` writes a number of any size, so that every place and
every width has a text here.
-/

namespace TwoPass.Numeral

/-- The digits of a number in a base up to sixteen, letters in upper case. -/
def digits (base n : Nat) : List Char :=
  (Nat.toDigits base n).map Char.toUpper

/-- The numeral of an integer in a base, at least `width` characters wide. -/
def padded (base width : Nat) (value : Int) : String :=
  if value < 0 then
    String.ofList ('-' :: (digits base value.natAbs).leftpad (width - 1) '0')
  else
    String.ofList ((digits base value.natAbs).leftpad width '0')

/-- The binary numeral of an integer, at least `width` characters wide. -/
def binary (width : Nat) (value : Int) : String :=
  padded 2 width value

/-- The hexadecimal numeral of an integer, at least `width` characters wide. -/
def hex (width : Nat) (value : Int) : String :=
  padded 16 width value

/-- The decimal numeral of an integer. -/
def decimal (value : Int) : String :=
  padded 10 0 value

/-- Addresses are shown as a dollar sign and at least four hexadecimal digits. -/
def address (value : Int) : String :=
  "$" ++ hex 4 value

/-- The refusal of a width that no field has. -/
inductive WidthError where
  | negative (width : Int)
  | overlong (e : Text.Overlong)
  deriving DecidableEq, Repr

def WidthError.message : WidthError → String
  | .negative width =>
    "Invalid format specifier '0" ++ decimal width ++ "b' for object of type 'int'"
  | .overlong .unindexable => "Too many decimal digits in format string"
  | .overlong .noRoom => ""

/-- The binary numeral of an integer in a field whose width is an integer too, where there is room
for texts of `room` characters. -/
def binaryField (room : Nat) (width value : Int) : Except WidthError String :=
  if width < 0 then .error (.negative width)
  else
    match Text.overlong? room width.toNat with
    | some e => .error (.overlong e)
    | none =>
      if room < (binary 0 value).length then .error (.overlong .noRoom)
      else .ok (binary width.toNat value)

/-- Whether a character is one of the sixteen hexadecimal digits, in either case. -/
def isHexDigit (c : Char) : Bool :=
  c.isDigit || ('a' ≤ c && c ≤ 'f') || ('A' ≤ c && c ≤ 'F')

/-- The value of a hexadecimal digit. -/
def digitValue (c : Char) : Nat :=
  if c.isDigit then c.toNat - '0'.toNat
  else if c.isUpper then c.toNat - 'A'.toNat + 10
  else c.toNat - 'a'.toNat + 10

/-- The number that digits stand for in a base. -/
def value (base : Nat) (ds : List Char) : Nat :=
  ds.foldl (fun n d => n * base + digitValue d) 0

end TwoPass.Numeral
