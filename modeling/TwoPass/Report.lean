import TwoPass.Assembly
import TwoPass.Text.Column

/-!
# Reports

The texts that show an assembly: the listing, the symbol file, the object file, and the words as
they are printed.
-/

namespace TwoPass.Assembly

/-- The columns of the listing. -/
def listingHeader : String :=
  Text.alignRight 6 "LC" ++ "  " ++ Text.alignLeft 6 "ADDR" ++ "  " ++
    Text.alignLeft wordBits "BINARY" ++ "  " ++ Text.alignLeft 4 "HEX" ++ "  SOURCE"

/-- An address as the listing and the printed words show it. -/
def listedAddress (address : Nat) : String :=
  "0x" ++ Numeral.hex 4 address

/-- The row of a word in the listing. -/
def listingRow (c : Cell) : String :=
  Text.alignRight 6 (Numeral.decimal c.address) ++ "  " ++ listedAddress c.address ++ "  " ++
    c.word.binary ++ "  " ++ c.word.hex ++ "  " ++ c.statement.text

/-- The row of a label in the listing. -/
def listingLabel (b : Binding) : String :=
  Text.alignLeft 20 b.label ++ " = " ++ Numeral.address b.value

/-- The listing: a row for every word, then a row for every label in order. -/
def listing (a : Assembly) : String :=
  "\n".intercalate ([listingHeader] ++ a.cells.map listingRow ++ ["", "Symbol table:"] ++
    a.labels.sorted.map listingLabel) ++ "\n"

/-- The row of a label in the symbol file. -/
def symbolRow (b : Binding) : String :=
  b.label ++ " " ++ Numeral.address b.value

/-- The symbol file: every label in order. -/
def symbolFile (a : Assembly) : String :=
  "\n".intercalate
    (["# Symbol table", "# Generated by manoasm"] ++ a.labels.sorted.map symbolRow) ++ "\n"

/-- The row of a word in the object file. -/
def objectRow (c : Cell) : String :=
  Numeral.hex 4 c.address ++ " " ++ c.word.binary ++ "\n"

/-- The object file: a row for every word. -/
def objectFile (a : Assembly) : String :=
  String.join (a.cells.map objectRow)

/-- A word as it is printed. -/
def printedWord (c : Cell) : String :=
  listedAddress c.address ++ "  " ++ c.word.binary ++ "  " ++ c.word.hex

end TwoPass.Assembly
