/-!
# The extent of texts

A text has no more characters than there are indices, and no more than there is room for. How much
room there is differs from machine to machine, so it is given. Widths that are asked for can be
greater than either.
-/

namespace TwoPass.Text

/-- Why a text of some width cannot be made. -/
inductive Overlong where
  /-- Its end is beyond every index. -/
  | unindexable
  /-- There is no room for it. -/
  | noRoom
  deriving DecidableEq, Repr

def Overlong.message : Overlong → String
  | .unindexable => "cannot fit 'int' into an index-sized integer"
  | .noRoom => ""

/-- The greatest index. -/
def maxIndex : Nat := 0x7FFFFFFFFFFFFFFF

/-- Why a text of the given width cannot be made, if it cannot, where there is room for `room`
characters. -/
def overlong? (room width : Nat) : Option Overlong :=
  if maxIndex < width then some .unindexable
  else if room < width then some .noRoom
  else none

end TwoPass.Text
