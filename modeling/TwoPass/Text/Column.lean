/-!
# Columns

Texts of a fixed least width, counted in characters and filled with blanks.
-/

namespace TwoPass.Text

/-- The text at the right end of a column. -/
def alignRight (width : Nat) (s : String) : String :=
  String.ofList (s.toList.leftpad width ' ')

/-- The text at the left end of a column. -/
def alignLeft (width : Nat) (s : String) : String :=
  String.ofList (s.toList.rightpad width ' ')

end TwoPass.Text
