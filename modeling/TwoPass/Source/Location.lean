import TwoPass.Text.Numeral

/-!
# Locations

Where a piece of source text stands, and the text that a message about it quotes. The numbers of a
place are written in full, however many digits they have.
-/

namespace TwoPass

/-- A file, a line and a column, both counted from one. The file and the line may be unknown. Words
that were split beforehand have column zero. -/
structure Location where
  file : Option String
  line : Option Int
  column : Int
  deriving DecidableEq, Repr

/-- The name of a file that may be unknown. -/
def fileText (file : Option String) : String :=
  file.getD "None"

/-- The number of a line that may be unknown. -/
def lineText (line : Option Int) : String :=
  (line.map Numeral.decimal).getD "None"

def Location.text (l : Location) : String :=
  fileText l.file ++ ":" ++ lineText l.line ++ ":" ++ Numeral.decimal l.column

/-- Where something comes from: its location, and the source line that a message quotes. -/
structure Origin where
  location : Option Location := none
  source : Option String := none
  deriving DecidableEq, Repr

end TwoPass
